import VpnMgr.Client.RemotePrivilege

/-!
# Remote commands and local programs

What the table of local programs has to do with the bytes that
`SSHVpnRunCommand` sends.
-/

namespace VpnMgr.Client

open Machine Text CString LibUseful Command Process

/-- What `RunCommandReadLoop` sends to answer the prompts of a transcript. -/
def Transcript.sent (transcript : Transcript) : CString :=
  (runCommandReadLoop "Remote".toList "su/sudo".toList transcript.chunks
    (.start transcript.session transcript.typed)).sent.flatten

/-- The bytes written to the SSH server, with the transcripts from some number on. -/
def bytesSent (transcripts : Nat → Transcript) : Nat → History Answer → CString
  | _, [] => []
  | index, ⟨.streamWriteLine .ssh text, _⟩ :: rest => text ++ bytesSent transcripts index rest
  | index, ⟨.runCommandReadLoop, _⟩ :: rest =>
      (transcripts index).sent ++ bytesSent transcripts (index + 1) rest
  | index, _ :: rest => bytesSent transcripts index rest

def Settings.withTable (settings : Settings) (table : CString → CPtr) : Settings :=
  { settings with getCommandPath := table }

/-- Both tables know the program of the form, or neither does. -/
def FoundAlike (settings : Settings) (table : CString → CPtr) (wrap : Wrap) : Prop :=
  wrapFound settings.getCommandPath wrap = wrapFound table wrap

/-- The tables agree on the programs that a run comes to use. -/
def TablesAgree (settings : Settings) (table : CString → CPtr) (flags : FlagWord)
    (transcripts : Nat → Transcript) : Prop :=
  FoundAlike settings table (firstForm settings flags) ∧
    ((transcripts 0).result ≠ .okay → FoundAlike settings table (secondForm settings flags))

/-- The results of `RunCommandReadLoop` are those of the transcripts. -/
def Serve (cmd : CString) (transcripts : Nat → Transcript) (made : History Answer) : Prop :=
  ∀ index entry, (reports cmd none made)[index]? = some entry →
    entry.2 = (transcripts index).result

section Bytes

variable {transcripts : Nat → Transcript} {cmd : CString} {settings : Settings}
  {table : CString → CPtr} {wrap : Wrap}

theorem bytesSent_append (before : History Answer) (index : Nat) :
    ∃ reached, ∀ rest, bytesSent transcripts index (before ++ rest) =
      bytesSent transcripts index before ++ bytesSent transcripts reached rest := by
  induction before generalizing index with
  | nil => exact ⟨index, fun _ => rfl⟩
  | cons interaction before inductionHypothesis =>
      have silent : ∀ text, (∀ rest, bytesSent transcripts index (interaction :: rest) =
          text ++ bytesSent transcripts index rest) →
          ∃ reached, ∀ rest, bytesSent transcripts index (interaction :: before ++ rest) =
            bytesSent transcripts index (interaction :: before) ++
              bytesSent transcripts reached rest := by
        intro text step
        obtain ⟨reached, split⟩ := inductionHypothesis index
        exact ⟨reached, fun rest => by
          rw [List.cons_append, step, step, split, List.append_assoc]⟩
      rcases interaction with ⟨call, answer⟩
      cases call
      case runCommandReadLoop =>
        obtain ⟨reached, split⟩ := inductionHypothesis (index + 1)
        refine ⟨reached, fun rest => ?_⟩
        rw [List.cons_append, bytesSent, bytesSent, split, List.append_assoc]
      case streamWriteLine target text =>
        cases target
        case ssh => exact silent text fun _ => rfl
        all_goals exact silent [] fun _ => rfl
      all_goals exact silent [] fun _ => rfl

theorem bytesSent_append_inj {before : History Answer} {index : Nat} :
    ∃ reached, ∀ first second, bytesSent transcripts index (before ++ first) =
        bytesSent transcripts index (before ++ second) →
      bytesSent transcripts reached first = bytesSent transcripts reached second := by
  obtain ⟨reached, split⟩ := bytesSent_append before index
  refine ⟨reached, fun first second same => ?_⟩
  rw [split, split] at same
  exact List.append_cancel_left same

theorem remoteForm_head (wrapped : wrap ≠ .bare) : ∃ rest, remoteForm cmd wrap = 's' :: rest := by
  cases wrap with
  | bare => exact absurd rfl wrapped
  | viaSudo => exact ⟨_, rfl⟩
  | viaSu => exact ⟨_, rfl⟩

theorem foundAlike_bare : FoundAlike settings table .bare := rfl

theorem lines_differ (unlike : ¬ FoundAlike settings table wrap) (rest other : CString) :
    (if wrapFound settings.getCommandPath wrap then remoteForm cmd wrap else []) ++ '\n' :: rest ≠
      (if wrapFound table wrap then remoteForm cmd wrap else []) ++
        '\n' :: other := by
  have wrapped : wrap ≠ .bare := by
    rintro rfl
    exact unlike foundAlike_bare
  obtain ⟨form, isForm⟩ := @remoteForm_head cmd wrap wrapped
  have starts : 's' ≠ '\n' := by decide
  unfold FoundAlike at unlike
  cases found : wrapFound settings.getCommandPath wrap <;>
    cases foundOther : wrapFound table wrap <;>
    simp [found, foundOther, isForm, starts, starts.symm] at unlike ⊢

end Bytes

/-! ## One try -/

theorem composable_returns : Composable (fun _ : History Answer => True) fun _ => False where
  nil := trivial
  append _ _ _ _ := trivial
  exits _ _ _ := id

theorem ask_returns (call : Call) : (ask call).Makes (fun _ => True) fun _ => False :=
  Makes.ask fun _ => trivial

theorem sshVpnSendSync_returns : sshVpnSendSync.Makes (fun _ => True) fun _ => False := by
  have composable := composable_returns
  refine (ask_returns _).bind composable fun _ => ?_
  exact (ask_returns _).bind composable fun _ => .pure composable _

theorem sshVpnSync_returns (fuel : Nat) :
    (sshVpnSync fuel).Makes (fun _ => True) fun _ => False := by
  have composable := composable_returns
  refine sshVpnSendSync_returns.bind composable fun key => ?_
  refine Makes.bind composable (.loop composable (fun key => ?_) fuel key) fun _ => ?_
  · refine (ask_returns _).bind composable fun text => ?_
    rcases text with _ | _ | ⟨head, tail⟩
    · exact .pure composable _
    · exact sshVpnSendSync_returns.bind composable fun _ => .pure composable _
    · refine .ite (.pure composable _) ?_
      exact (ask_returns _).bind composable fun _ => .ite (.pure composable _) (.pure composable _)
  · exact (ask_returns _).bind composable fun _ => .pure composable ()

section Try

variable {settings : Settings} {table : CString → CPtr} {fuel : Nat} {cmd : CString}
  {flags : FlagWord} {env : Environment Answer} {before after : History Answer}

def Leads (settings : Settings) (cmd : CString) (wrap : Wrap) (made : History Answer) : Prop :=
  ∃ sent newline rest, made =
    ⟨.streamWriteLine .ssh
      (if wrapFound settings.getCommandPath wrap then remoteForm cmd wrap else []), sent⟩ ::
      ⟨.streamWriteLine .ssh "\n".toList, newline⟩ :: rest

theorem Leads.append {wrap : Wrap} {made : History Answer} (leads : Leads settings cmd wrap made)
    (more : History Answer) : Leads settings cmd wrap (made ++ more) := by
  obtain ⟨sent, newline, rest, rfl⟩ := leads
  exact ⟨sent, newline, rest ++ more, rfl⟩

theorem sshVpnSendCommand_leads (valid : strValid (some cmd) = true) :
    (sshVpnSendCommand settings cmd flags).Ends (fun _ => Leads settings cmd (wrapOf flags))
      fun _ => False := by
  unfold sshVpnSendCommand
  rw [if_pos valid, remoteLine]
  refine (Ends.asked _).bind fun sent first isFirst => ?_
  refine (Ends.asked _).bind fun newline second isSecond => ?_
  obtain rfl := isFirst
  obtain rfl := isSecond
  refine Ends.ite (fun _ => ?_) fun _ => ?_
  · exact Ends.ask fun _ => ⟨sent, newline, _, rfl⟩
  · exact Ends.pure ⟨sent, newline, _, rfl⟩

/-- A try syncs, and sends the line. -/
theorem sshVpnRunCommandTry_leads (valid : strValid (some cmd) = true) {ending : Ending Bool}
    (ended : sshVpnRunCommandTry settings fuel cmd flags env before = some (ending, after)) :
    ∃ synced made, sshVpnSync fuel env before = some (.returned (), synced) ∧
      after = synced ++ made ∧ Leads settings cmd (wrapOf flags) made := by
  rw [sshVpnRunCommandTry, bind_run] at ended
  rcases reached : sshVpnSync fuel env before with _ | ⟨result | _, synced⟩
  · rw [reached] at ended
    cases ended
  · rw [reached] at ended
    have rest : (do
        let result ← sshVpnSendCommand settings cmd flags
        Process.when (!flags.has cmdNoSync) (sshVpnSync fuel)
        pure (decide (result = .okay)) : Driver Bool).Ends
        (fun _ => Leads settings cmd (wrapOf flags)) fun _ => False := by
      refine (sshVpnSendCommand_leads valid).bind fun _ made leads => ?_
      refine Ends.bind (Makes.when composable_returns (sshVpnSync_returns fuel)) fun _ more _ => ?_
      exact Ends.pure (leads.append (more ++ []))
    obtain ⟨made, rfl, leads⟩ := rest env synced ending after ended
    cases ending with
    | returned => exact ⟨synced, made, rfl, rfl, leads⟩
    | exited => exact leads.elim
  · obtain ⟨_, -, exits⟩ := sshVpnSync_returns fuel env before _ _ reached
    exact exits.elim

theorem sshVpnRunCommandTry_returns :
    (sshVpnRunCommandTry settings fuel cmd flags).Makes (fun _ => True) fun _ => False := by
  have composable := composable_returns
  refine (sshVpnSync_returns fuel).bind composable fun _ => ?_
  refine Makes.bind composable ?_ fun _ => ?_
  · refine .ite ?_ (.pure composable _)
    refine (ask_returns _).bind composable fun _ => (ask_returns _).bind composable fun _ => ?_
    exact .ite (ask_returns _) (.pure composable _)
  · exact (Makes.when composable (sshVpnSync_returns fuel)).bind composable fun _ =>
      .pure composable _

theorem sshVpnRunCommandTry_alike
    (alike : strValid (some cmd) = true → FoundAlike settings table (wrapOf flags)) :
    sshVpnRunCommandTry (settings.withTable table) fuel cmd flags =
      sshVpnRunCommandTry settings fuel cmd flags := by
  have send : sshVpnSendCommand (settings.withTable table) cmd flags =
      sshVpnSendCommand settings cmd flags := by
    unfold sshVpnSendCommand
    split
    case isTrue valid =>
      rw [remoteLine, remoteLine, alike valid]
      rfl
    case isFalse => rfl
  rw [sshVpnRunCommandTry, sshVpnRunCommandTry, send]

/-- With tables that are not alike, two tries after the same history send different bytes. -/
theorem sshVpnRunCommandTry_unlike {transcripts : Nat → Transcript} (index : Nat)
    (valid : strValid (some cmd) = true) (unlike : ¬ FoundAlike settings table (wrapOf flags))
    {ending endingOther : Ending Bool} {other : History Answer}
    (ended : sshVpnRunCommandTry settings fuel cmd flags env before = some (ending, after))
    (endedOther : sshVpnRunCommandTry (settings.withTable table) fuel cmd flags env before =
      some (endingOther, other)) (more moreOther : History Answer) :
    bytesSent transcripts index (after ++ more) ≠
      bytesSent transcripts index (other ++ moreOther) := by
  obtain ⟨synced, made, isSynced, rfl, leads⟩ := sshVpnRunCommandTry_leads valid ended
  obtain ⟨again, madeOther, isAgain, rfl, leadsOther⟩ := sshVpnRunCommandTry_leads valid endedOther
  obtain rfl : synced = again := by
    rw [isSynced] at isAgain
    exact (Prod.mk.inj (Option.some.inj isAgain)).2
  obtain ⟨sent, newline, rest, rfl⟩ := leads
  obtain ⟨sentOther, newlineOther, restOther, rfl⟩ := leadsOther
  obtain ⟨reached, cancel⟩ := @bytesSent_append_inj transcripts synced index
  rw [List.append_assoc, List.append_assoc]
  exact fun same => lines_differ unlike _ _ (cancel _ _ same)

end Try

/-! ## Both tries -/

section Run

variable {settings : Settings} {table : CString → CPtr} {fuel : Nat} {cmd : CString}
  {flags : FlagWord} {env : Environment Answer} {transcripts : Nat → Transcript}
  {first second : Ending Bool} {made other : History Answer}

def firstFlags (settings : Settings) (flags : FlagWord) : FlagWord :=
  let bare := flags.drop (cmdSu ||| cmdSudo)
  let withSu := if flags.has cmdSu && settings.globalFlags.has flagRemoteSu then bare.raise cmdSu
    else bare
  if flags.has cmdSudo && settings.globalFlags.has flagRemoteSudo then withSu.raise cmdSudo
  else withSu

theorem sshVpnRunCommand_eq (settings : Settings) (fuel : Nat) (cmd : CString) (flags : FlagWord) :
    sshVpnRunCommand settings fuel cmd flags = (do
      if ← sshVpnRunCommandTry settings fuel cmd (firstFlags settings flags) then pure true
      else sshVpnRunCommandTry settings fuel cmd ((firstFlags settings flags).drop cmdSudo)) := rfl

theorem wrapOf_firstFlags : wrapOf (firstFlags settings flags) = firstForm settings flags ∧
    wrapOf ((firstFlags settings flags).drop cmdSudo) = secondForm settings flags :=
  wrapOf_raised flags (flags.has cmdSudo && settings.globalFlags.has flagRemoteSudo)
    (flags.has cmdSu && settings.globalFlags.has flagRemoteSu)

inductive Tries (settings : Settings) (fuel : Nat) (cmd : CString) (flags : FlagWord)
    (env : Environment Answer) : Ending Bool → History Answer → Prop
  | once {made : History Answer}
      (succeeded : sshVpnRunCommandTry settings fuel cmd (firstFlags settings flags) env [] =
        some (.returned true, made)) : Tries settings fuel cmd flags env (.returned true) made
  | twice {ending : Ending Bool} {before made : History Answer}
      (failed : sshVpnRunCommandTry settings fuel cmd (firstFlags settings flags) env [] =
        some (.returned false, before))
      (again : sshVpnRunCommandTry settings fuel cmd ((firstFlags settings flags).drop cmdSudo)
        env before = some (ending, made)) : Tries settings fuel cmd flags env ending made

theorem sshVpnRunCommand_tries
    (ended : sshVpnRunCommand settings fuel cmd flags env [] = some (first, made)) :
    Tries settings fuel cmd flags env first made := by
  rw [sshVpnRunCommand_eq, bind_run] at ended
  rcases reached : sshVpnRunCommandTry settings fuel cmd (firstFlags settings flags) env [] with
    _ | ⟨(succeeded | _), before⟩
  · rw [reached] at ended
    cases ended
  · rw [reached] at ended
    cases succeeded with
    | true =>
        obtain ⟨rfl, rfl⟩ := Prod.mk.inj (Option.some.inj ended)
        exact .once reached
    | false => exact .twice reached ended
  · obtain ⟨_, -, exits⟩ := sshVpnRunCommandTry_returns env [] _ _ reached
    exact exits.elim

theorem firstTry_okay {result : Bool} {before : History Answer} (valid : strValid (some cmd) = true)
    (wrapped : firstForm settings flags ≠ .bare)
    (tried : sshVpnRunCommandTry settings fuel cmd (firstFlags settings flags) env [] =
      some (.returned result, before))
    (more : History Answer) (served : Serve cmd transcripts (before ++ more)) :
    result = decide ((transcripts 0).result = .okay) := by
  obtain ⟨status, rfl, held⟩ := (sshVpnRunCommandTry_tried valid).returned tried
  rw [wrapOf_firstFlags.1] at held
  rw [← served 0 _ (by rw [held.wrapped wrapped]; rfl)]

theorem Tries.begins (tries : Tries settings fuel cmd flags env first made) :
    ∃ ending before more,
      sshVpnRunCommandTry settings fuel cmd (firstFlags settings flags) env [] =
        some (ending, before) ∧ made = before ++ more := by
  cases tries with
  | once succeeded => exact ⟨_, _, [], succeeded, (List.append_nil _).symm⟩
  | twice failed again =>
      obtain ⟨more, isAfter, -⟩ := sshVpnRunCommandTry_returns env _ _ _ again
      exact ⟨_, _, more, failed, isAfter⟩

theorem secondForm_bare (bare : firstForm settings flags = .bare) :
    secondForm settings flags = .bare := by
  unfold firstForm at bare
  unfold secondForm
  split at bare
  case isTrue => cases bare
  case isFalse => exact bare

theorem firstForm_of_failed {before : History Answer} (valid : strValid (some cmd) = true)
    (failed : sshVpnRunCommandTry settings fuel cmd (firstFlags settings flags) env [] =
      some (.returned false, before)) : firstForm settings flags ≠ .bare := by
  intro bare
  obtain ⟨status, isFailed, held⟩ := (sshVpnRunCommandTry_tried valid).returned failed
  rw [wrapOf_firstFlags.1] at held
  rw [(held.bare bare).1] at isFailed
  cases isFailed

/-- With tables that are alike for the first try, the rest is decided by the second. -/
theorem tries_alike (valid : strValid (some cmd) = true)
    (alike : FoundAlike settings table (firstForm settings flags))
    (tries : Tries settings fuel cmd flags env first made)
    (triesOther : Tries (settings.withTable table) fuel cmd flags env second other)
    (served : Serve cmd transcripts made) :
    (first = second ∧ bytesSent transcripts 0 made = bytesSent transcripts 0 other) ↔
      ((transcripts 0).result ≠ .okay →
        FoundAlike settings table (secondForm settings flags)) := by
  have same : sshVpnRunCommandTry (settings.withTable table) fuel cmd (firstFlags settings flags) =
      sshVpnRunCommandTry settings fuel cmd (firstFlags settings flags) :=
    sshVpnRunCommandTry_alike fun _ => wrapOf_firstFlags.1 ▸ alike
  have flagsSame : firstFlags (settings.withTable table) flags = firstFlags settings flags := rfl
  cases tries with
  | once succeeded =>
      obtain ⟨rfl, rfl⟩ : second = .returned true ∧ other = made := by
        cases triesOther with
        | once succeededOther =>
            rw [flagsSame, same, succeeded] at succeededOther
            exact ⟨rfl, (Prod.mk.inj (Option.some.inj succeededOther)).2.symm⟩
        | twice failed _ =>
            rw [flagsSame, same, succeeded] at failed
            cases failed
      refine iff_of_true ⟨rfl, rfl⟩ fun failed => ?_
      by_cases bare : firstForm settings flags = .bare
      · rw [secondForm_bare bare]
        exact foundAlike_bare
      · have okay := firstTry_okay valid bare succeeded [] (by rwa [List.append_nil])
        exact absurd (of_decide_eq_true okay.symm) failed
  | @twice _ before _ failed again =>
      have againOther : sshVpnRunCommandTry (settings.withTable table) fuel cmd
          ((firstFlags settings flags).drop cmdSudo) env before = some (second, other) := by
        cases triesOther with
        | once succeeded =>
            rw [flagsSame, same, failed] at succeeded
            cases succeeded
        | twice failedOther againOther =>
            rw [flagsSame, same, failed] at failedOther
            obtain rfl := (Prod.mk.inj (Option.some.inj failedOther)).2
            exact againOther
      obtain ⟨more, rfl, -⟩ := sshVpnRunCommandTry_returns env _ _ _ again
      have notOkay : (transcripts 0).result ≠ .okay := of_decide_eq_false
        (firstTry_okay valid (firstForm_of_failed valid failed) failed more served).symm
      rw [← wrapOf_firstFlags.2]
      constructor
      · refine fun equal _ => by_contra fun unlike => ?_
        have differ := @sshVpnRunCommandTry_unlike _ _ _ _ _ _ _ _ transcripts 0 valid unlike
          _ _ _ again againOther [] []
        rw [List.append_nil, List.append_nil] at differ
        exact differ equal.2
      · intro alikeSecond
        rw [sshVpnRunCommandTry_alike fun _ => alikeSecond notOkay, again] at againOther
        obtain ⟨rfl, rfl⟩ := Prod.mk.inj (Option.some.inj againOther)
        exact ⟨rfl, rfl⟩

end Run

/-- Two tables of local programs make no difference to what is sent and to the
result exactly when there is no command or they agree on the programs of the tries. -/
theorem sshVpnRunCommand_tables_iff (settings : Settings) (table : CString → CPtr) (fuel : Nat)
    (cmd : CString) (flags : FlagWord) (env : Environment Answer) (first second : Ending Bool)
    (made other : History Answer)
    (ended : sshVpnRunCommand settings fuel cmd flags env [] = some (first, made))
    (endedOther : sshVpnRunCommand (settings.withTable table) fuel cmd flags env [] =
      some (second, other))
    (transcripts : Nat → Transcript) (served : Serve cmd transcripts made) :
    (first = second ∧ bytesSent transcripts 0 made = bytesSent transcripts 0 other) ↔
      (strValid (some cmd) = true → TablesAgree settings table flags transcripts) := by
  have tries := sshVpnRunCommand_tries ended
  have triesOther := sshVpnRunCommand_tries endedOther
  by_cases valid : strValid (some cmd) = true
  · simp only [valid, true_implies]
    by_cases alike : FoundAlike settings table (firstForm settings flags)
    · rw [tries_alike valid alike tries triesOther served]
      exact ⟨fun second => ⟨alike, second⟩, fun agree => agree.2⟩
    · refine iff_of_false (fun equal => ?_) fun agree => alike agree.1
      obtain ⟨_, _, more, begun, rfl⟩ := tries.begins
      obtain ⟨_, _, moreOther, begunOther, rfl⟩ := triesOther.begins
      rw [← wrapOf_firstFlags.1] at alike
      exact sshVpnRunCommandTry_unlike 0 valid alike begun begunOther more moreOther equal.2
  · have same : ∀ flags, sshVpnRunCommandTry (settings.withTable table) fuel cmd flags =
        sshVpnRunCommandTry settings fuel cmd flags :=
      fun _ => sshVpnRunCommandTry_alike fun isValid => absurd isValid valid
    have flagsSame : firstFlags (settings.withTable table) flags = firstFlags settings flags := rfl
    rw [sshVpnRunCommand_eq, flagsSame, same, same, ← sshVpnRunCommand_eq, ended] at endedOther
    obtain ⟨rfl, rfl⟩ := Prod.mk.inj (Option.some.inj endedOther)
    exact iff_of_true ⟨rfl, rfl⟩ fun isValid => absurd isValid valid

/-- A server that says nothing until the user interrupts the reading. -/
def silentHost : Environment Answer
  | _, .runCommandReadLoop => .begin
  | history, call => obligingHost history call

def silentTranscript : Transcript :=
  { session := ⟨flagRemoteSudo, fun _ => none⟩
    typed := []
    chunks := [{ text := [], interrupted := true }] }

/-- The line in the form for sudo, and the line of a machine without sudo. -/
theorem silentHost_runs :
    ∃ made other,
      sshVpnRunCommand remoteSudoSettings 1 "id".toList cmdSudo silentHost [] =
        some (.returned true, made) ∧
      sshVpnRunCommand (remoteSudoSettings.withTable fun _ => none) 1 "id".toList cmdSudo silentHost
        [] = some (.returned true, other) ∧
      reports "id".toList none made = [(some .viaSudo, .begin)] ∧
      bytesSent (fun _ => silentTranscript) 0 made ≠
        bytesSent (fun _ => silentTranscript) 0 other := by
  have run : (sshVpnRunCommand remoteSudoSettings 1 "id".toList cmdSudo silentHost []).map
      (fun ended => (ended.1, reports "id".toList none ended.2,
        (bytesSent (fun _ => silentTranscript) 0 ended.2).length)) =
      some (.returned true, [(some .viaSudo, .begin)], 218) := by decide +kernel
  have runOther : (sshVpnRunCommand (remoteSudoSettings.withTable fun _ => none) 1 "id".toList
      cmdSudo silentHost []).map (fun ended => (ended.1,
        (bytesSent (fun _ => silentTranscript) 0 ended.2).length)) =
      some (.returned true, 149) := by decide +kernel
  obtain ⟨⟨ending, made⟩, ended, read⟩ := Option.map_eq_some_iff.mp run
  obtain ⟨⟨endingOther, other⟩, endedOther, readOther⟩ := Option.map_eq_some_iff.mp runOther
  obtain ⟨rfl, rest⟩ := Prod.mk.inj read
  obtain ⟨report, length⟩ := Prod.mk.inj rest
  obtain ⟨rfl, lengthOther⟩ := Prod.mk.inj readOther
  refine ⟨made, other, ended, endedOther, report, fun same => ?_⟩
  rw [← same, length] at lengthOther
  cases lengthOther

theorem silentTranscript_serves {made : History Answer}
    (report : reports "id".toList none made = [(some .viaSudo, .begin)]) :
    Serve "id".toList (fun _ => silentTranscript) made := by
  have result : silentTranscript.result = .begin := by decide
  intro index entry isEntry
  rw [report] at isEntry
  rcases index with _ | index
  · obtain rfl := Option.some.inj isEntry
    exact result.symm
  · cases isEntry

def otherTable : CString → CPtr := fun name =>
  if name = "sudo".toList then some "/usr/local/bin/sudo".toList else none

theorem silentHost_runsOther :
    ∃ made other,
      sshVpnRunCommand remoteSudoSettings 1 "id".toList cmdSudo silentHost [] =
        some (.returned true, made) ∧
      sshVpnRunCommand (remoteSudoSettings.withTable otherTable) 1 "id".toList cmdSudo silentHost
        [] = some (.returned true, other) ∧
      reports "id".toList none made = [(some .viaSudo, .begin)] := by
  have run : (sshVpnRunCommand remoteSudoSettings 1 "id".toList cmdSudo silentHost []).map
      (fun ended => (ended.1, reports "id".toList none ended.2)) =
      some (.returned true, [(some .viaSudo, .begin)]) := by decide +kernel
  have runOther : (sshVpnRunCommand (remoteSudoSettings.withTable otherTable) 1 "id".toList
      cmdSudo silentHost []).map Prod.fst = some (.returned true) := by decide +kernel
  obtain ⟨⟨ending, made⟩, ended, read⟩ := Option.map_eq_some_iff.mp run
  obtain ⟨⟨endingOther, other⟩, endedOther, rfl⟩ := Option.map_eq_some_iff.mp runOther
  obtain ⟨rfl, report⟩ := Prod.mk.inj read
  exact ⟨made, other, ended, endedOther, report⟩

theorem sshVpnRunCommand_tables_iff_silent :
    ∃ made other, reports "id".toList none made = [(some .viaSudo, .begin)] ∧
      bytesSent (fun _ => silentTranscript) 0 made =
        bytesSent (fun _ => silentTranscript) 0 other := by
  obtain ⟨made, other, ended, endedOther, report⟩ := silentHost_runsOther
  refine ⟨made, other, report, ((sshVpnRunCommand_tables_iff _ _ _ _ _ _ _ _ _ _ ended endedOther
    _ (silentTranscript_serves report)).mpr fun _ => ⟨?_, fun _ => ?_⟩).2⟩
  · unfold FoundAlike
    decide
  · unfold FoundAlike
    decide

/-- Without a local sudo, the server's sudo is not used. -/
theorem sshVpnRunCommand_needs_local_sudo :
    ∃ made other,
      sshVpnRunCommand remoteSudoSettings 1 "id".toList cmdSudo silentHost [] =
        some (.returned true, made) ∧
      sshVpnRunCommand (remoteSudoSettings.withTable fun _ => none) 1 "id".toList cmdSudo silentHost
        [] = some (.returned true, other) ∧
      Serve "id".toList (fun _ => silentTranscript) made ∧
      bytesSent (fun _ => silentTranscript) 0 made ≠
        bytesSent (fun _ => silentTranscript) 0 other := by
  obtain ⟨made, other, ended, endedOther, report, differ⟩ := silentHost_runs
  exact ⟨made, other, ended, endedOther, silentTranscript_serves report, differ⟩

end VpnMgr.Client
