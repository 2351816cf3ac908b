import VpnMgr.Client.Events

/-!
# openvpn's log

What a run of `OpenVpnProcess` does is a function of the lines it acts on.
-/

namespace VpnMgr.Client

open Machine Text CString LibUseful Command Process

def openVpnDev (dev : CString) (lines : List CString) : CString :=
  lines.foldl (fun dev line => (openVpnLine dev (stripTrailingWhitespace line)).1) dev

/-- The devices given to `VpnUp` on these lines. -/
def openVpnUps : CString → List CString → List CString
  | _, [] => []
  | dev, line :: rest =>
      let (dev, up) := openVpnLine dev (stripTrailingWhitespace line)
      if up then dev :: openVpnUps dev rest else openVpnUps dev rest

def logUses : CString → List CString → List CString → List (List CString × CString)
  | _, _, [] => []
  | dev, heeded, line :: rest =>
      let (dev, up) := openVpnLine dev (stripTrailingWhitespace line)
      let heeded := heeded ++ [line]
      if up then (heeded, dev) :: logUses dev heeded rest else logUses dev heeded rest

section Runs

variable {settings : Settings} {fuel : Nat} {vpn : TVpn}

def Marked (call : Call) (features : List Feature) (made : History Answer) : Prop :=
  ∃ answer rest, made = ⟨call, answer⟩ :: rest ∧ Only (within features) rest

theorem marked_ends {call : Call} {features : List Feature} {body : Driver Unit}
    (touches : Touches body features) :
    (do let _ ← ask call; body).Ends (fun _ made => Marked call features made)
      (Marked call features) := by
  refine (Ends.asked call).bind fun answer first marked => ?_
  refine Ends.mono touches (fun _ rest only => ?_) fun rest only => ?_
  all_goals exact ⟨answer, rest, by rw [marked]; rfl, only⟩

theorem vpnUp_ends (dev : CString) :
    (vpnUp settings vpn dev).Ends
      (fun _ made => Marked (.vpnUp dev) [.addRoute, .rewrite, .move, .script] made)
      (Marked (.vpnUp dev) [.addRoute, .rewrite, .move, .script]) :=
  marked_ends (vpnUpBody_touches dev)

theorem vpnDown_ends (dev : CString) :
    (vpnDown vpn dev).Ends (fun _ made => Marked (.vpnDown dev) [.deleteDevice, .script] made)
      (Marked (.vpnDown dev) [.deleteDevice, .script]) :=
  marked_ends (vpnDownBody_touches dev)

theorem brackets_vpnUp {dev : CString} {features : List Feature} {made : History Answer}
    (marked : Marked (.vpnUp dev) features made) (lacks : .bracket ∉ features) :
    brackets made = [.up dev] := by
  obtain ⟨answer, rest, rfl, only⟩ := marked
  have silent := brackets_eq_nil only lacks
  rw [brackets, List.filterMap_cons]
  exact congrArg (Bracket.up dev :: ·) silent

theorem heededLines_marked {call : Call} {features : List Feature} {made : History Answer}
    (marked : Marked call features made) (lacks : .log ∉ features) (notLog : featureOf call ≠ .log)
    (rest : History Answer) : heededLines (made ++ rest) = heededLines rest := by
  obtain ⟨answer, tail, rfl, only⟩ := marked
  rw [List.cons_append, heededLines, heededLine_eq_nil notLog, List.nil_append]
  exact heededLines_append only lacks rest

/-- What the loop of `OpenVpnProcess` does from a device on. -/
def Follows (dev : CString) (made : History Answer) : Prop :=
  brackets made = (openVpnUps dev (heededLines made)).map .up

theorem heededLines_round (line : CString) (rest : History Answer) :
    heededLines (⟨.streamReadLine .openvpn, some line⟩ :: ⟨.flagExit, false⟩ :: rest) =
      line :: heededLines rest := rfl

theorem deviceUses_round (heeded : List CString) (line : CString) (rest : History Answer) :
    deviceUses heeded (⟨.streamReadLine .openvpn, some line⟩ :: ⟨.flagExit, false⟩ :: rest) =
      deviceUses (heeded ++ [line]) rest := by
  have silent := @deviceUses_silent ⟨.flagExit, false⟩ rest rfl rfl (heeded ++ [line])
  exact (List.nil_append _).trans silent

/-- The line makes `OpenVpnProcess` call `VpnUp`. -/
def reportsUp (line : CString) : Bool := (openVpnLine [] (stripTrailingWhitespace line)).2

theorem openVpnLine_up (dev line : CString) :
    (openVpnLine dev (stripTrailingWhitespace line)).2 = reportsUp line := by
  simp only [reportsUp, openVpnLine, apply_ite Prod.snd]

theorem openVpnUps_eq_nil_iff (dev : CString) (lines : List CString) :
    openVpnUps dev lines = [] ↔ lines.any reportsUp = false := by
  induction lines generalizing dev with
  | nil => simp [openVpnUps]
  | cons line rest inductionHypothesis =>
      rw [List.any_cons, ← openVpnLine_up dev line]
      simp only [openVpnUps]
      rcases openVpnLine dev (stripTrailingWhitespace line) with ⟨next, _ | _⟩
      · simpa using inductionHypothesis next
      · simp

theorem openVpnUps_cons (dev line : CString) (rest : List CString) :
    openVpnUps dev (line :: rest) =
      openVpnUps dev [line] ++ openVpnUps (openVpnLine dev (stripTrailingWhitespace line)).1 rest := by
  simp only [openVpnUps]
  split <;> rfl

theorem logUses_cons (dev line : CString) (heeded rest : List CString) :
    logUses dev heeded (line :: rest) =
      (openVpnUps dev [line]).map (heeded ++ [line], ·) ++
        logUses (openVpnLine dev (stripTrailingWhitespace line)).1 (heeded ++ [line]) rest := by
  simp only [logUses, openVpnUps]
  split <;> rfl

structure LineDone (start line : CString) (made : History Answer) : Prop where
  ups : brackets made = (openVpnUps start [line]).map .up
  quiet : ∀ more, heededLines (made ++ more) = heededLines more
  uses : ∀ heeded more, deviceUses heeded (made ++ more) =
    (openVpnUps start [line]).map (heeded, ·) ++ deviceUses heeded more

theorem lineDone_vpnUp {dev : CString} {made : History Answer} {features : List Feature}
    (entered : Marked (.vpnUp dev) features made)
    (lacks : .log ∉ features ∧ .bracket ∉ features ∧ .shutdown ∉ features) :
    brackets made = [.up dev] ∧ (∀ more, heededLines (made ++ more) = heededLines more) ∧
      ∀ heeded more, deviceUses heeded (made ++ more) =
        (heeded, dev) :: deviceUses heeded more := by
  refine ⟨brackets_vpnUp entered lacks.2.1, ?_, fun heeded more => ?_⟩
  · exact heededLines_marked entered lacks.1 (by simp [featureOf])
  · obtain ⟨answer, rest, rfl, only⟩ := entered
    have tail := deviceUses_append only lacks heeded more
    rw [List.cons_append, deviceUses, heededLine_eq_nil (by simp [featureOf]), List.append_nil, tail]
    rfl

theorem openVpnProcess_line (start line : CString) :
    Ends (do
      let (dev, up) := openVpnLine start (stripTrailingWhitespace line)
      Process.when up (vpnUp settings vpn dev)
      pure (Sum.inl dev : CString ⊕ CString))
      (fun next made => next = .inl (openVpnLine start (stripTrailingWhitespace line)).1 ∧
        LineDone start line made)
      (LineDone start line) := by
  have done : ∀ made, (openVpnLine start (stripTrailingWhitespace line)).2 = true →
      Marked (.vpnUp (openVpnLine start (stripTrailingWhitespace line)).1)
        [.addRoute, .rewrite, .move, .script] made → LineDone start line made := by
    intro made up entered
    have facts := lineDone_vpnUp entered (by simp)
    constructor <;> simp [openVpnUps, up, facts]
  rcases event : openVpnLine start (stripTrailingWhitespace line) with ⟨dev, up⟩
  rw [event] at done
  cases up with
  | false =>
      refine Ends.pure ⟨rfl, ?_⟩
      constructor <;> simp [openVpnUps, event]
  | true =>
      refine ((vpnUp_ends dev).mono (fun _ made => done made rfl) (done · rfl)).bind ?_
      intro _ made held
      exact Ends.pure ⟨rfl, by simpa using held⟩

theorem Follows.round {start line : CString} {made more : History Answer}
    (done : LineDone start line made)
    (follows : Follows (openVpnLine start (stripTrailingWhitespace line)).1 more) :
    Follows start
      (⟨.streamReadLine .openvpn, some line⟩ :: ⟨.flagExit, false⟩ :: (made ++ more)) := by
  unfold Follows at *
  rw [heededLines_round, done.quiet, openVpnUps_cons, List.map_append, ← done.ups, ← follows]
  exact brackets_append made more

structure Followed (start dev : CString) (made : History Answer) : Prop where
  follows : Follows start made
  last : dev = openVpnDev start (heededLines made)
  closed : ∀ more, heededLines (made ++ more) = heededLines made ++ heededLines more
  uses : ∀ heeded more, deviceUses heeded (made ++ more) =
    logUses start heeded (heededLines made) ++ deviceUses (heeded ++ heededLines made) more

theorem Followed.stop {start : CString} {made : History Answer} (ups : brackets made = [])
    (quiet : ∀ more, heededLines (made ++ more) = heededLines more)
    (uses : ∀ heeded more, deviceUses heeded (made ++ more) = deviceUses heeded more) :
    Followed start start made := by
  have none : heededLines made = [] := by simpa using quiet []
  exact ⟨by rw [Follows, ups, none]; rfl, by rw [none]; rfl, by simp [quiet, none],
    by simp [uses, none, logUses]⟩

theorem Followed.round {start line dev : CString} {made more : History Answer}
    (done : LineDone start line made)
    (followed : Followed (openVpnLine start (stripTrailingWhitespace line)).1 dev more) :
    Followed start dev
      (⟨.streamReadLine .openvpn, some line⟩ :: ⟨.flagExit, false⟩ :: (made ++ more)) where
  follows := followed.follows.round done
  last := by
    rw [heededLines_round, done.quiet, followed.last]
    rfl
  closed after := by
    simp only [List.cons_append, heededLines_round, List.append_assoc, done.quiet, followed.closed]
  uses heeded after := by
    rw [heededLines_round, done.quiet, List.cons_append, List.cons_append, List.append_assoc,
      deviceUses_round, done.uses, followed.uses, logUses_cons, List.append_assoc,
      List.append_assoc]
    rfl

theorem openVpnProcess_ends :
    (openVpnProcess settings fuel vpn).Ends (Followed "????".toList) (Follows "????".toList) := by
  refine Ends.loop_from (fun start => ?_) fuel _
  refine (Ends.asked _).bind fun line read isRead => ?_
  cases line with
  | none =>
      obtain rfl := isRead
      exact Ends.pure (.stop rfl (fun _ => rfl) fun heeded _ => deviceUses_silent rfl rfl heeded)
  | some line =>
      refine (Ends.asked _).bind fun isSet test isTest => ?_
      obtain rfl := isRead
      obtain rfl := isTest
      cases isSet with
      | true =>
          exact Ends.pure (.stop rfl (fun _ => rfl) fun heeded _ =>
            (deviceUses_silent rfl rfl heeded).trans (deviceUses_silent rfl rfl heeded))
      | false =>
          refine (openVpnProcess_line start line).mono ?_ ?_
          · rintro _ made ⟨rfl, done⟩
            exact ⟨fun dev more followed => followed.round done,
              fun more follows => Follows.round done follows⟩
          · intro made done
            have alone : Follows (openVpnLine start (stripTrailingWhitespace line)).1 [] := rfl
            simpa using Follows.round done alone

/-- A run of `OpenVpnUp`, as the log of the openvpn it started directs it. -/
structure LogDriven (made : History Answer) : Prop where
  ups : Follows "????".toList made
  uses : ∀ heeded, deviceUses heeded made =
    logUses "????".toList heeded (heededLines made) ++
      if made.any launches then
        [(heeded ++ heededLines made, openVpnDev "????".toList (heededLines made))]
      else []

theorem LogDriven.after {features : List Feature} {before made : History Answer}
    (only : Only (within features) before)
    (lacks : .log ∉ features ∧ .bracket ∉ features ∧ .shutdown ∉ features ∧ .launch ∉ features)
    (driven : LogDriven made) : LogDriven (before ++ made) where
  ups := by
    rw [Follows, brackets_append, brackets_eq_nil only lacks.2.1,
      heededLines_append only lacks.1]
    exact driven.ups
  uses heeded := by
    rw [deviceUses_append only ⟨lacks.1, lacks.2.1, lacks.2.2.1⟩, List.any_append,
      launches_eq_false only lacks.2.2.2, heededLines_append only lacks.1]
    exact driven.uses heeded

theorem LogDriven.nil : LogDriven [] := ⟨rfl, fun _ => rfl⟩

theorem tunShutdown_yields (dev : CString) :
    (tunShutdown dev).Yields fun _ made => ∀ heeded, deviceUses heeded made = [(heeded, dev)] := by
  have marked : (tunShutdown dev).Ends (fun _ made => Marked (.tunShutdown dev) [.deleteDevice] made)
      (Marked (.tunShutdown dev) [.deleteDevice]) :=
    marked_ends (Uses.bind (command_plain rfl) fun _ => command_touches .deleteDevice rfl (by simp))
  refine marked.mono (fun _ made entered heeded => ?_) fun _ _ => trivial
  obtain ⟨answer, rest, rfl, only⟩ := entered
  have silent := deviceUses_append only (by simp) heeded []
  rw [List.append_nil] at silent
  rw [deviceUses, heededLine_eq_nil (by simp [featureOf]), List.append_nil, silent]
  rfl

theorem openVpnShutDown_yields (dev : CString) :
    (openVpnShutDown settings vpn dev).Yields fun _ made =>
      ∀ heeded, deviceUses heeded made = [(heeded, dev)] := by
  have absorbs : ∀ (result : Unit) (before made : History Answer), Only (within []) before →
      (∀ heeded, deviceUses heeded made = [(heeded, dev)]) →
        ∀ heeded, deviceUses heeded (before ++ made) = [(heeded, dev)] := by
    intro _ before made only held heeded
    rw [deviceUses_append only (by simp)]
    exact held heeded
  have file : Touches (readFile (openVpnPath settings vpn ".pid".toList)) [] := ask_plain rfl
  refine Uses.before file absorbs fun text => ?_
  exact Uses.before (Uses.when (command_plain rfl)) absorbs fun _ => tunShutdown_yields dev

/-- From the start of openvpn on. -/
theorem openVpnSession_yields :
    Yields (do
      let dev ← openVpnProcess settings fuel vpn
      openVpnShutDown settings vpn dev)
      fun _ made => Follows "????".toList made ∧
        ∀ heeded, deviceUses heeded made =
          logUses "????".toList heeded (heededLines made) ++
            [(heeded ++ heededLines made, openVpnDev "????".toList (heededLines made))] := by
  refine openVpnProcess_ends.yields.bind fun dev made followed => ?_
  refine (openVpnShutDown_yields dev).and (openVpnShutDown_touches dev) |>.mono ?_ fun _ _ => trivial
  rintro _ tail ⟨shut, onlyTail⟩
  have silent : heededLines tail = [] := heededLines_eq_nil onlyTail (by simp)
  have same : heededLines (made ++ tail) = heededLines made := by
    rw [followed.closed, silent, List.append_nil]
  constructor
  · rw [Follows, same, brackets_append, brackets_eq_nil onlyTail (by simp), List.append_nil]
    exact followed.follows
  · intro heeded
    rw [same, followed.uses, shut, followed.last]

theorem openVpnUp_yields : (openVpnUp settings fuel vpn).Yields fun _ made => LogDriven made := by
  refine Uses.before (@tunAvailable_touches []) (fun _ _ _ only => LogDriven.after only (by simp))
    fun available => ?_
  split
  case isFalse => exact Ends.pure .nil
  refine Uses.before (@defaultDevGetMTU_touches []) (fun _ _ _ only => LogDriven.after only (by simp))
    fun _ => ?_
  refine Uses.before (Uses.when openVpnGenPasswordFile_touches)
    (fun _ _ _ only => LogDriven.after only (by simp)) fun _ => ?_
  refine (runCommandOpen_yields _ _).bind fun opened launch isLaunch => ?_
  obtain rfl := isLaunch
  cases opened with
  | false => exact Ends.pure ⟨rfl, fun heeded => deviceUses_silent rfl rfl heeded⟩
  | true =>
      refine Yields.mono openVpnSession_yields fun _ made held => ⟨held.1, fun heeded => ?_⟩
      exact (deviceUses_silent rfl rfl heeded).trans (held.2 heeded)

end Runs

end VpnMgr.Client
