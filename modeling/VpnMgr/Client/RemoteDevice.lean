import VpnMgr.Client.RemotePrivilege
import VpnMgr.LibUseful.TimedStream

/-!
# The remote tunnel device

`SSHGetRemoteDev` looks for a line that begins with `tun` among ten strings, and
a string is a line only if no timeout cuts it.
-/

namespace VpnMgr.Client

open Machine Text CString LibUseful Command Process

/-- The answers of a stream that delivers these strings and then is closed. -/
def Delivers : List CPtr → List CString → Prop
  | [], _ => True
  | answer :: rest, texts => answer = texts.head? ∧ Delivers rest texts.tail

def lineReadOf : Sigma Answer → Option CPtr
  | ⟨.streamReadToMultiTerminator .ssh, answer⟩ => some answer
  | _ => none

def linesReadOf (made : History Answer) : List CPtr := made.filterMap lineReadOf

def isTun (text : CString) : Bool := hasPrefix "tun".toList text

/-- The lines of which at least one of the first `n` strings is a part. -/
def linesTouched : Nat → List CutLine → List CutLine
  | _, [] => []
  | 0, _ => []
  | n + 1, line :: rest => line :: linesTouched (n + 1 - line.strings.length) rest

/-- Nothing, or the first line among those read that begins with `tun`. -/
def Recognised (reads : Nat) (lines : List CutLine) (dev : CString) : Prop :=
  dev = [] ∨ ∃ line, (linesTouched reads lines).find? (fun line => isTun line.text) = some line ∧
    dev = stripTrailingWhitespace line.text

def sshTexts (events : List ReadEvent) : List CString :=
  (streamReadTexts "\r\n".toList [] events).map Prod.fst

def sshLines (events : List ReadEvent) : List CutLine := cutLines "\r\n".toList [] [] events

def CutLine.texts (line : CutLine) : List CString := line.strings.map Prod.fst

/-- The first line that begins with `tun` starts within the ten strings, no line
before it has a cut in front of a `tun`, and what is first read of it that begins
with `tun` is all of it, blanks at its end apart.  Or there is no such string, and
the tenth is blank or missing. -/
def Recognisable (events : List ReadEvent) : Prop :=
  (∃ front line rest, sshLines events = front ++ line :: rest ∧
    (∀ before ∈ front, isTun before.text = false) ∧ isTun line.text = true ∧
    (∀ text ∈ front.flatMap CutLine.texts, isTun text = false) ∧
    ∃ text, (((line :: rest).flatMap CutLine.texts).take
        (10 - (front.flatMap CutLine.texts).length)).find? isTun = some text ∧
      stripTrailingWhitespace text = stripTrailingWhitespace line.text) ∨
  (∀ text ∈ (sshTexts events).take 10, isTun text = false) ∧
    stripTrailingWhitespace (copyStr (sshTexts events)[9]?) = []

theorem isTun_strip (text : CString) : isTun (stripTrailingWhitespace text) = isTun text := by
  by_cases tun : isTun text = true
  · obtain ⟨rest, rfl⟩ := (hasPrefix_iff _ _).mp tun
    rw [tun, stripTrailingWhitespace_append]
    split
    · decide
    · exact hasPrefix_append _ _
  · rw [Bool.not_eq_true] at tun
    rw [tun]
    by_contra stripped
    rw [Bool.not_eq_false] at stripped
    obtain ⟨rest, whole⟩ := (hasPrefix_iff _ _).mp stripped
    have front : stripTrailingWhitespace text <+: text := List.rdropWhile_prefix ..
    rw [whole] at front
    have inside : "tun".toList <+: text := (List.prefix_append _ rest).trans front
    obtain ⟨behind, same⟩ := inside
    rw [← same, isTun, hasPrefix_append] at tun
    cases tun

theorem strip_ne_nil {text : CString} (tun : isTun text = true) : stripTrailingWhitespace text ≠ [] := by
  intro empty
  rw [← isTun_strip, empty] at tun
  exact absurd tun (by decide)

/-- The loop ends with the first string that begins with `tun`, else with its
last one. -/
theorem sshReadRemoteDev_finds (rounds : Nat) (dev : CString) :
    (sshReadRemoteDev rounds dev).Yields fun result made =>
      ∀ texts, Delivers (linesReadOf made) texts →
        (∃ text, (texts.take rounds).find? isTun = some text ∧
          result = stripTrailingWhitespace text ∧
          (linesReadOf made).length = texts.findIdx isTun + 1) ∨
        (texts.take rounds).find? isTun = none ∧ (linesReadOf made).length = rounds ∧
          result = if rounds = 0 then dev
            else stripTrailingWhitespace (copyStr texts[rounds - 1]?) := by
  induction rounds generalizing dev with
  | zero => exact Ends.pure fun texts _ => .inr ⟨by simp, rfl, rfl⟩
  | succ rounds inductionHypothesis =>
      refine Ends.bind (Ends.asked _) fun answer made isMade => ?_
      obtain rfl := isMade
      refine Ends.ite (fun tun => ?_) fun notTun => ?_
      · refine Ends.pure fun texts delivers => .inl ?_
        obtain ⟨isHead, -⟩ := delivers
        rw [Bool.and_eq_true] at tun
        cases texts with
        | nil =>
            rw [isHead] at tun
            exact absurd tun.2 (by decide)
        | cons text rest =>
            rw [isHead] at tun ⊢
            have isFirst : isTun text = true := by
              rw [← isTun_strip]
              exact tun.2
            refine ⟨text, by simp [isFirst], rfl, ?_⟩
            simp [List.findIdx_cons, isFirst, linesReadOf, lineReadOf]
      · refine Yields.mono (inductionHypothesis _) fun result more held texts delivers => ?_
        obtain ⟨isHead, delivers⟩ := delivers
        have length : (linesReadOf ([⟨.streamReadToMultiTerminator .ssh, answer⟩] ++ more)).length =
            (linesReadOf more).length + 1 := rfl
        rw [length]
        cases texts with
        | nil =>
            rcases held [] delivers with ⟨text, found, -⟩ | ⟨-, count, isLast⟩
            · exact absurd found (by simp)
            · refine .inr ⟨by simp, by rw [count], ?_⟩
              rw [isLast, isHead]
              simp
        | cons text rest =>
            have other : isTun text = false := by
              by_contra tun
              rw [Bool.not_eq_false] at tun
              refine notTun ?_
              rw [isHead, Bool.and_eq_true]
              exact ⟨(strValid_some_iff _).mpr (strip_ne_nil tun), (isTun_strip text).trans tun⟩
            rcases held rest delivers with ⟨found, isFound, isResult, count⟩ | ⟨none, count, isLast⟩
            · refine .inl ⟨found, by simpa [other] using isFound, isResult, ?_⟩
              rw [count, List.findIdx_cons, other]
              rfl
            · refine .inr ⟨by simpa [other] using none, by rw [count], ?_⟩
              rw [isLast, isHead]
              cases rounds with
              | zero => rfl
              | succ rounds => rfl

/-! ## Strings and lines -/

def stringCount (lines : List CutLine) : Nat := (lines.flatMap CutLine.texts).length

theorem sshTexts_eq (events : List ReadEvent) :
    sshTexts events = (sshLines events).flatMap CutLine.texts := by
  have strings := cutLines_strings "\r\n".toList [] [] events
  rw [List.nil_append] at strings
  rw [sshTexts, ← strings, List.map_flatMap]
  rfl

section Touched

variable {front rest : List CutLine} {line : CutLine} {n : Nat}

theorem stringCount_cons (first : CutLine) (lines : List CutLine) :
    stringCount (first :: lines) = first.strings.length + stringCount lines := by
  simp [stringCount, CutLine.texts]

theorem linesTouched_append (reach : stringCount front < n) :
    ∃ more, linesTouched n (front ++ line :: rest) = front ++ line :: more := by
  induction front generalizing n with
  | nil =>
      cases n with
      | zero => exact absurd reach (by simp)
      | succ n => exact ⟨_, rfl⟩
  | cons first front inductionHypothesis =>
      rw [stringCount_cons] at reach
      cases n with
      | zero => exact absurd reach (by simp)
      | succ n =>
          obtain ⟨more, whole⟩ := @inductionHypothesis (n + 1 - first.strings.length) (by omega)
          exact ⟨more, by rw [List.cons_append, linesTouched, whole]; rfl⟩

theorem linesTouched_split {lines more : List CutLine}
    (touched : linesTouched n lines = front ++ line :: more) :
    ∃ rest, lines = front ++ line :: rest ∧ stringCount front < n := by
  induction front generalizing n lines with
  | nil =>
      cases lines with
      | nil => simp [linesTouched] at touched
      | cons first lines =>
          cases n with
          | zero => simp [linesTouched] at touched
          | succ n =>
              obtain ⟨rfl, -⟩ := List.cons.inj touched
              exact ⟨lines, rfl, by simp [stringCount]⟩
  | cons first front inductionHypothesis =>
      cases lines with
      | nil => simp [linesTouched] at touched
      | cons other lines =>
          cases n with
          | zero => simp [linesTouched] at touched
          | succ n =>
              obtain ⟨rfl, later⟩ := List.cons.inj touched
              obtain ⟨rest, rfl, reach⟩ := inductionHypothesis later
              refine ⟨rest, rfl, ?_⟩
              rw [stringCount_cons]
              omega

theorem find?_behind {front behind : List CString} (none : ∀ text ∈ front, isTun text = false) :
    ((front ++ behind).take 10).find? isTun = (behind.take (10 - front.length)).find? isTun ∧
      front.length ≤ (front ++ behind).findIdx isTun := by
  have nothing : (front.take 10).find? isTun = .none :=
    List.find?_eq_none.mpr fun text member => by simp [none text (List.mem_of_mem_take member)]
  have noIndex : ¬ front.findIdx isTun < front.length := by
    rw [List.findIdx_lt_length]
    rintro ⟨text, member, tun⟩
    simp [none text member] at tun
  rw [List.take_append, List.find?_append, nothing, Option.none_or, List.findIdx_append,
    if_neg noIndex]
  exact ⟨rfl, Nat.le_add_left ..⟩

end Touched

/-- What ten reads come to. -/
theorem recognised_iff {events : List ReadEvent} {reads : Nat} {dev : CString}
    (outcome : (∃ text, ((sshTexts events).take 10).find? isTun = some text ∧
          dev = stripTrailingWhitespace text ∧ reads = (sshTexts events).findIdx isTun + 1) ∨
        ((sshTexts events).take 10).find? isTun = none ∧ reads = 10 ∧
          dev = stripTrailingWhitespace (copyStr (sshTexts events)[9]?)) :
    Recognised reads (sshLines events) dev ↔ Recognisable events := by
  have texts := sshTexts_eq events
  rcases outcome with ⟨text, found, rfl, rfl⟩ | ⟨nothing, rfl, rfl⟩
  · have tun : isTun text = true := List.find?_some found
    constructor
    · rintro (empty | ⟨line, isLine, same⟩)
      · exact absurd empty (strip_ne_nil tun)
      · obtain ⟨lineTun, front, more, touched, others⟩ := List.find?_eq_some_iff_append.mp isLine
        obtain ⟨rest, whole, reach⟩ := linesTouched_split touched
        rw [texts, whole, List.flatMap_append] at found reach
        have early : ∀ text ∈ front.flatMap CutLine.texts, isTun text = false := by
          intro text member
          by_contra isFirst
          rw [Bool.not_eq_false] at isFirst
          have inFront := List.findIdx_lt_length.mpr ⟨text, member, isFirst⟩
          rw [List.findIdx_append, if_pos inFront] at reach
          exact absurd inFront (by unfold stringCount at reach; omega)
        rw [(find?_behind early).1] at found
        exact .inl ⟨front, line, rest, whole, fun before member => by simpa using others before member,
          lineTun, early, text, found, same⟩
    · rintro (⟨front, line, rest, whole, others, lineTun, early, other, isOther, same⟩ | ⟨none, -⟩)
      · rw [texts, whole, List.flatMap_append] at found ⊢
        obtain ⟨behind, index⟩ := @find?_behind _ ((line :: rest).flatMap CutLine.texts) early
        rw [behind, isOther] at found
        obtain rfl := Option.some.inj found
        obtain ⟨more, touched⟩ := @linesTouched_append front rest line _ (Nat.lt_succ_of_le index)
        refine .inr ⟨line, ?_, same⟩
        rw [touched]
        exact List.find?_eq_some_iff_append.mpr
          ⟨lineTun, front, more, rfl, fun before member => by simp [others before member]⟩
      · exact absurd tun (by simp [none text (List.mem_of_find?_eq_some found)])
  · have noTun : ∀ text ∈ (sshTexts events).take 10, isTun text = false :=
      fun text member => by simpa using List.find?_eq_none.mp nothing text member
    constructor
    · rintro (empty | ⟨line, isLine, same⟩)
      · exact .inr ⟨noTun, empty⟩
      · have tun := List.find?_some isLine
        rw [← isTun_strip, ← same, isTun_strip] at tun
        rcases tenth : (sshTexts events)[9]? with _ | text
        · rw [tenth] at tun
          exact absurd tun (by decide)
        · rw [tenth, copyStr_some] at tun
          have member : text ∈ (sshTexts events).take 10 := by
            refine List.mem_of_getElem? (i := 9) ?_
            rw [List.getElem?_take_of_lt (by decide), tenth]
          exact absurd tun (by simp [noTun text member])
    · rintro (⟨front, line, rest, whole, -, -, early, other, isOther, -⟩ | ⟨-, blank⟩)
      · rw [texts, whole, List.flatMap_append, (find?_behind early).1, isOther] at nothing
        cases nothing
      · exact .inl blank

/-- The command that `SSHSetup` has the server run. -/
def remoteRoute (address : CPtr) (dev : CString) : CString :=
  mCopyStr [some "/sbin/route add -host ".toList, address, some " dev ".toList, some dev]

def syncLine (key : CString) : CString :=
  mCopyStr [some "export PS1=\"\"; export PS2=\"\"; echo ".toList, some key, some "\n".toList]

/-- The lines sent to the server synchronise, are blank, or are the route command
for this device in one of its forms. -/
def RoutesTun (dev : CString) (made : History Answer) : Prop :=
  ∀ text answer, ⟨.streamWriteLine .ssh text, answer⟩ ∈ made →
    (∃ key, text = syncLine key) ∨ text = [] ∨ text = "\n".toList ∨
      ∃ address wrap, text = remoteForm (remoteRoute address dev) wrap

section Routes

variable {dev : CString}

theorem composable_routesTun : Composable (RoutesTun dev) (RoutesTun dev) where
  nil := fun _ _ member => absurd member List.not_mem_nil
  append _ _ first second text answer member :=
    (List.mem_append.mp member).elim (first text answer) (second text answer)
  exits _ _ first second text answer member :=
    (List.mem_append.mp member).elim (first text answer) (second text answer)

theorem ask_routesTun {call : Call} (noText : ∀ text, call ≠ .streamWriteLine .ssh text) :
    (ask call).Makes (RoutesTun dev) (RoutesTun dev) := by
  refine Makes.ask fun answer text other member => ?_
  exact absurd (congrArg Sigma.fst (List.mem_singleton.mp member)).symm (noText text)

theorem streamWriteLine_routesTun {text : CString} (own : (∃ key, text = syncLine key) ∨ text = [] ∨
      text = "\n".toList ∨ ∃ address wrap, text = remoteForm (remoteRoute address dev) wrap) :
    (streamWriteLine .ssh text).Makes (RoutesTun dev) (RoutesTun dev) := by
  refine Makes.ask fun answer other also member => ?_
  have same := congrArg Sigma.fst (List.mem_singleton.mp member)
  obtain rfl : other = text := by simpa using same
  exact own

theorem sshVpnSendSync_routesTun : sshVpnSendSync.Makes (RoutesTun dev) (RoutesTun dev) := by
  refine (ask_routesTun (by simp)).bind composable_routesTun fun key => ?_
  exact (streamWriteLine_routesTun (.inl ⟨key, rfl⟩)).bind composable_routesTun
    fun _ => .pure composable_routesTun key

theorem sshVpnSync_routesTun (fuel : Nat) :
    (sshVpnSync fuel).Makes (RoutesTun dev) (RoutesTun dev) := by
  have composable := @composable_routesTun dev
  refine sshVpnSendSync_routesTun.bind composable fun key => ?_
  refine Makes.bind composable (.loop composable (fun key => ?_) fuel key) fun _ => ?_
  · refine (ask_routesTun (by simp)).bind composable fun text => ?_
    rcases text with _ | _ | ⟨head, tail⟩
    · exact .pure composable _
    · exact sshVpnSendSync_routesTun.bind composable fun _ => .pure composable _
    · refine .ite (.pure composable _) ?_
      exact (ask_routesTun (by simp)).bind composable fun _ =>
        .ite (.pure composable _) (.pure composable _)
  · exact (ask_routesTun (by simp)).bind composable fun _ => .pure composable ()

theorem sshVpnRunCommandTry_routesTun {settings : Settings} {fuel : Nat} {flags : FlagWord}
    (address : CPtr) :
    (sshVpnRunCommandTry settings fuel (remoteRoute address dev) flags).Makes (RoutesTun dev)
      (RoutesTun dev) := by
  have composable := @composable_routesTun dev
  refine (sshVpnSync_routesTun fuel).bind composable fun _ => ?_
  refine Makes.bind composable (.ite ?_ (.pure composable _)) fun _ => ?_
  · refine Makes.bind composable (streamWriteLine_routesTun ?_) fun _ => ?_
    · rw [remoteLine]
      split
      · exact .inr (.inr (.inr ⟨address, _, rfl⟩))
      · exact .inr (.inl rfl)
    · refine (streamWriteLine_routesTun (.inr (.inr (.inl rfl)))).bind composable fun _ => ?_
      exact .ite (ask_routesTun (by simp)) (.pure composable _)
  · exact (Makes.when composable (sshVpnSync_routesTun fuel)).bind composable fun _ =>
      .pure composable _

theorem sshSetupRoute_routesTun (settings : Settings) (fuel : Nat) (vpn : TVpn) :
    (sshSetupRoute settings fuel vpn dev).Makes (RoutesTun dev) (RoutesTun dev) := by
  have composable := @composable_routesTun dev
  have found : (sshLocalAddress vpn).Makes (RoutesTun dev) (RoutesTun dev) :=
    .ite (.pure composable _) (Makes.bind composable (Makes.bind composable
      (ask_routesTun (by simp)) fun _ => ask_routesTun (by simp)) fun _ => .pure composable _)
  refine found.bind composable fun vpn => Makes.bind composable (.when composable ?_) fun _ =>
    .pure composable _
  refine Makes.bind composable ?_ fun _ => .pure composable ()
  exact (sshVpnRunCommandTry_routesTun vpn.localAddress).bind composable fun _ =>
    .ite (.pure composable _) (sshVpnRunCommandTry_routesTun vpn.localAddress)

end Routes

/-- `SSHGetRemoteDev` returns nothing or the first `tun` line, and `SSHSetup` adds
routes for such a device only, exactly if the transcript is recognisable. -/
theorem sshGetRemoteDev_recognised_iff (env : Environment Answer) (before : History Answer)
    (dev : CString) (made : History Answer)
    (run : sshGetRemoteDev env before = some (.returned dev, before ++ made))
    (events : List ReadEvent) (delivers : Delivers (linesReadOf made) (sshTexts events)) :
    (Recognised (linesReadOf made).length (sshLines events) dev ∧
        (strValid (some dev) = true → isTun dev = true ∧ ∀ settings fuel vpn,
          (sshSetupRoute settings fuel vpn dev).Makes (RoutesTun dev) (RoutesTun dev))) ↔
      Recognisable events := by
  have specification : sshGetRemoteDev.Yields fun dev made => ∀ texts,
      Delivers (linesReadOf made) texts →
        (∃ text, (texts.take 10).find? isTun = some text ∧ dev = stripTrailingWhitespace text ∧
          (linesReadOf made).length = texts.findIdx isTun + 1) ∨
        (texts.take 10).find? isTun = none ∧ (linesReadOf made).length = 10 ∧
          dev = stripTrailingWhitespace (copyStr texts[9]?) := by
    refine Ends.bind (Ends.asked _) fun _ asked isAsked => ?_
    obtain rfl := isAsked
    exact sshReadRemoteDev_finds 10 []
  obtain ⟨_, split, held⟩ := specification env before _ _ run
  obtain rfl := List.append_cancel_left split
  have iff := recognised_iff (held _ delivers)
  refine ⟨fun both => iff.mp both.1, fun recognisable => ⟨iff.mpr recognisable, fun valid => ?_⟩⟩
  rcases iff.mpr recognisable with rfl | ⟨line, found, rfl⟩
  · exact absurd valid (by decide)
  · have isFirst := List.find?_some found
    exact ⟨(isTun_strip line.text).trans isFirst, sshSetupRoute_routesTun⟩

def bytesOf (text : CString) : List ReadEvent := text.map .byte

def tunHost (pieces : List CString) : Environment Answer
  | history, .streamReadToMultiTerminator .ssh => pieces[(linesReadOf history).length]?
  | history, call => obligingHost history call

/-- The echo of the question, cut by a timeout, and the answer. -/
def echoedTun : List ReadEvent :=
  bytesOf "echo $SS".toList ++ .timeout :: bytesOf "H_TUNNEL\r\ntun0 \r\n".toList

def echoedPieces : List CString :=
  ["echo $SS".toList, "H_TUNNEL\r".toList, "\n".toList, "tun0 \r".toList]

theorem sshGetRemoteDev_recognised_echoed :
    ∃ made, sshGetRemoteDev (tunHost echoedPieces) [] = some (.returned "tun0".toList, made) ∧
      Recognised (linesReadOf made).length (sshLines echoedTun) "tun0".toList := by
  have run : (sshGetRemoteDev (tunHost echoedPieces) []).map
      (fun ended => (ended.1, linesReadOf ended.2)) =
        some (.returned "tun0".toList, echoedPieces.map some) := by decide
  obtain ⟨⟨ending, made⟩, ended, read⟩ := Option.map_eq_some_iff.mp run
  obtain ⟨rfl, lines⟩ := Prod.mk.inj read
  refine ⟨made, ended, ?_⟩
  refine ((sshGetRemoteDev_recognised_iff (tunHost echoedPieces) [] _ made ended echoedTun
    ?_).mpr (.inl ⟨(sshLines echoedTun).take 2, _, _, rfl, ?_⟩)).1
  · rw [show linesReadOf made = echoedPieces.map some from lines]
    exact ⟨by decide, by decide, by decide, by decide, trivial⟩
  · exact ⟨by decide, by decide, by decide, "tun0 \r".toList, by decide, by decide⟩

/-- A timeout inside the device's name: the name of another device is returned. -/
theorem sshGetRemoteDev_fragment :
    ∃ made, sshGetRemoteDev (tunHost ["tun".toList]) [] = some (.returned "tun".toList, made) ∧
      Delivers (linesReadOf made)
        (sshTexts (bytesOf "tun".toList ++ .timeout :: bytesOf "0\r\n".toList)) ∧
      ¬ Recognised (linesReadOf made).length
        (sshLines (bytesOf "tun".toList ++ .timeout :: bytesOf "0\r\n".toList)) "tun".toList := by
  have run : (sshGetRemoteDev (tunHost ["tun".toList]) []).map
      (fun ended => (ended.1, linesReadOf ended.2)) =
        some (.returned "tun".toList, [some "tun".toList]) := by decide
  obtain ⟨⟨ending, made⟩, ended, read⟩ := Option.map_eq_some_iff.mp run
  obtain ⟨rfl, lines⟩ := Prod.mk.inj read
  have isLines : linesReadOf made = [some "tun".toList] := lines
  refine ⟨made, ended, ?_⟩
  rw [isLines]
  refine ⟨⟨by decide, trivial⟩, ?_⟩
  rintro (empty | ⟨line, found, same⟩)
  · exact absurd empty (by decide)
  · have first : ((linesTouched 1 (sshLines (bytesOf "tun".toList ++ .timeout ::
        bytesOf "0\r\n".toList))).find? fun line => isTun line.text).map CutLine.text =
        some "tun0\r".toList := by decide
    rw [List.length_singleton] at found
    rw [found] at first
    rw [show line.text = "tun0\r".toList from Option.some.inj first] at same
    exact absurd same (by decide)

end VpnMgr.Client
