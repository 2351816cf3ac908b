import VpnMgr.Command.Passwords

/-!
# Rejected passwords

When a password that was turned away is sent again without asking the user.
-/

namespace VpnMgr.Command

open Machine Text CString LibUseful

namespace Held

def lines (held : Held) : List Chunk :=
  linesOf held.domain.name "su/sudo".toList held.session held.dialogue.typed held.dialogue.chunks

def Asks (held : Held) : Prop := ∃ chunk ∈ held.lines, chunk.reaction = .password

/-- A line asks for the password, and the last line turns the user away. -/
def Rejects (held : Held) : Prop :=
  held.Asks ∧ held.lines.getLast?.map Chunk.reaction = some .authFail

end Held

/-- After a password is sent in a dialogue that ends with `RUN_CMD_AUTH_FAIL`, it
is not sent to the same end before the user has typed it again. -/
def NeverReplayed (held : List Held) : Prop :=
  ∀ earlier first between later after, held = earlier ++ first :: between ++ later :: after →
    later.domain = first.domain → first.loop.result = .authFail →
      ∀ password, .sent password ∈ first.events →
        ∀ before rest, later.events = before ++ .sent password :: rest →
          .typed password ∈
            ((between.filter fun one => one.domain = first.domain).flatMap Held.events) ++ before

/-- After a dialogue that ends with a rejection no later one with the same end asks. -/
def AskedNoMore (held : List Held) : Prop :=
  ∀ earlier first between later after, held = earlier ++ first :: between ++ later :: after →
    later.domain = first.domain → first.Rejects → ¬ later.Asks

/-! ## One dialogue -/

section Dialogue

variable {domain : Domain} {loop : ReadLoop} {chunk : Chunk}

theorem refuses_eq (loop : ReadLoop) :
    loop.refuses domain.name "su/sudo".toList =
      (!strValid (some (kept domain loop.session.passwords)) && !strValid (loop.typed.headD none)) :=
  rfl

theorem Transacts.new_ne_nil {after : ReadLoop} {new : List PasswordEvent}
    (done : Transacts domain loop after new) : new ≠ [] := by
  cases done <;> simp

theorem chunkEvents_eq_nil_iff : chunkEvents domain chunk loop = [] ↔ chunk.reaction ≠ .password := by
  unfold chunkEvents
  split
  case isTrue asks => exact iff_of_false (transacts domain loop).new_ne_nil fun other => other asks
  case isFalse other => exact iff_of_true rfl other

/-- A line that does not end the loop, in the terms of `linesRead`. -/
theorem readStep_line (chunk : Chunk) (reading : Reading loop) :
    (readStep domain chunk loop).2 =
        (chunk.stops (loop.refuses domain.name "su/sudo".toList) ||
          loop.session.globalFlags.has flagExit || chunk.interrupted) ∧
      ((readStep domain chunk loop).2 = false →
        Reading (readStep domain chunk loop).1 ∧
          (readStep domain chunk loop).1.refuses domain.name "su/sudo".toList =
            loop.refuses domain.name "su/sudo".toList ∧
          (readStep domain chunk loop).1.session.globalFlags.has flagExit =
            loop.session.globalFlags.has flagExit) := by
  have done := lineRead domain.name "su/sudo".toList chunk reading
  have breaks : (readStep domain chunk loop).2 =
      (chunk.stops (loop.refuses domain.name "su/sudo".toList) ||
        loop.session.globalFlags.has flagExit || chunk.interrupted) := by
    unfold readStep
    dsimp only
    rw [stays_flagged, done.flags, ← done.breaks, Bool.or_assoc]
  refine ⟨breaks, fun goesOn => ?_⟩
  rw [breaks, Bool.or_eq_false_iff, Bool.or_eq_false_iff, ← done.breaks] at goesOn
  obtain ⟨⟨unbroken, -⟩, uninterrupted⟩ := goesOn
  unfold readStep
  rw [uninterrupted]
  exact ⟨done.reading unbroken, done.refuses unbroken,
    congrArg (FlagWord.has · flagExit) done.flags⟩

theorem readEvents_eq_nil_iff (chunks : List Chunk) (reading : Reading loop) :
    readEvents domain chunks loop = [] ↔
      ∀ chunk ∈ linesRead (loop.refuses domain.name "su/sudo".toList)
        (loop.session.globalFlags.has flagExit) chunks, chunk.reaction ≠ .password := by
  induction chunks generalizing loop with
  | nil => simp [readEvents, linesRead]
  | cons chunk rest inductionHypothesis =>
      obtain ⟨breaks, goesOn⟩ := @readStep_line domain loop chunk reading
      rw [readEvents, linesRead, List.append_eq_nil_iff, chunkEvents_eq_nil_iff, ← breaks]
      cases broken : (readStep domain chunk loop).2 with
      | true => simp
      | false =>
          obtain ⟨readingAfter, refuses, flagged⟩ := goesOn broken
          simp only [Bool.false_eq_true, if_false, List.forall_mem_cons,
            inductionHypothesis readingAfter, refuses, flagged]

end Dialogue

theorem Held.events_eq_nil_iff (held : Held) : held.events = [] ↔ ¬ held.Asks := by
  rw [Held.events, readEvents_eq_nil_iff _ (.inl rfl), Held.Asks]
  push Not
  exact Iff.rfl

theorem Held.authFail_iff (held : Held) :
    held.loop.result = .authFail ↔ held.lines.getLast?.map Chunk.reaction = some .authFail := by
  rw [Held.loop, runCommandReadLoop_result _ _ _ (.inl rfl)]
  change verdict _ .begin held.lines = _ ↔ _
  unfold verdict
  rcases held.lines.getLast?.map Chunk.reaction with _ | reaction
  · dsimp only
    split
    · split <;> simp
    · simp
  · cases reaction <;> dsimp only <;> repeat' split
    all_goals simp

theorem copyStr_of_invalid {text : CPtr} (invalid : strValid text = false) : copyStr text = [] := by
  rcases text with _ | _ | _
  · rfl
  · rfl
  · cases invalid

/-- A rejected password was one, and is kept. -/
theorem Held.kept_of_authFail (held : Held) (failed : held.loop.result = .authFail)
    (asks : held.Asks) :
    strValid (some (kept held.domain held.loop.session.passwords)) = true ∧
      .sent (kept held.domain held.loop.session.passwords) ∈ held.events := by
  have asked : held.events ≠ [] := fun nothing => held.events_eq_nil_iff.mp nothing asks
  have answered : (ReadLoop.start held.session held.dialogue.typed).refuses held.domain.name
      "su/sudo".toList = false := by
    by_contra refused
    obtain ⟨chunk, member, prompt⟩ := asks
    have last := linesRead_last member (by
      rw [Chunk.stops, prompt]
      exact Bool.not_eq_false _ ▸ refused)
    have rejected := held.authFail_iff.mp failed
    change held.lines.getLast? = some chunk at last
    rw [last, Option.map_some, prompt] at rejected
    cases rejected
  have keeps := @readLoop_induction held.domain (fun loop events =>
      (events = [] ∧ loop.refuses held.domain.name "su/sudo".toList = false) ∨
        strValid (some (kept held.domain loop.session.passwords)) = true)
    (fun loop events after new holds done => by
      cases done with
      | replays valid => exact .inr valid
      | asks _ _ valid =>
          refine .inr ?_
          dsimp only
          rw [kept_setPassword, if_pos rfl]
          exact strValid_copyStr valid
      | aborts missing empty =>
          rcases holds with ⟨-, answered⟩ | valid
          · rw [refuses_eq, missing, empty] at answered
            cases answered
          · rw [missing] at valid
            cases valid)
    (fun _ _ _ _ holds => holds) held.dialogue.chunks
    (.start held.session held.dialogue.typed) [] (.inl ⟨rfl, answered⟩)
  have sends := @readLoop_induction held.domain (fun loop events =>
      events = [] ∨ .sent (kept held.domain loop.session.passwords) ∈ events)
    (fun loop events after new _ done => by
      refine .inr (List.mem_append_right _ ?_)
      cases done with
      | replays => exact List.mem_singleton_self _
      | asks =>
          dsimp only
          rw [kept_setPassword, if_pos rfl]
          exact List.mem_cons_of_mem _ List.mem_cons_self
      | aborts missing empty =>
          have same : kept held.domain loop.session.passwords = copyStr (loop.typed.headD none) :=
            (copyStr_of_invalid missing).trans (copyStr_of_invalid empty).symm
          dsimp only
          rw [same]
          exact List.mem_cons_of_mem _ List.mem_cons_self)
    (fun _ _ _ _ holds => holds) held.dialogue.chunks
    (.start held.session held.dialogue.typed) [] (.inl rfl)
  exact ⟨keeps.resolve_left fun nothing => asked nothing.1, sends.resolve_left asked⟩

/-- Where a password is kept, it is sent at every prompt, and stays. -/
theorem Held.replays (held : Held)
    (valid : strValid (some (kept held.domain held.passwords)) = true) :
    kept held.domain held.loop.session.passwords = kept held.domain held.passwords ∧
      ∀ event ∈ held.events, event = .sent (kept held.domain held.passwords) := by
  refine @readLoop_induction held.domain (fun loop events =>
      kept held.domain loop.session.passwords = kept held.domain held.passwords ∧
        ∀ event ∈ events, event = .sent (kept held.domain held.passwords)) ?_
    (fun _ _ _ _ holds => holds) held.dialogue.chunks
    (.start held.session held.dialogue.typed) [] ⟨rfl, by simp⟩
  intro loop events after new holds done
  cases done with
  | replays =>
      refine ⟨holds.1, fun event member => ?_⟩
      rcases List.mem_append.mp member with before | now
      · exact holds.2 event before
      · rw [List.mem_singleton.mp now, holds.1]
  | asks missing => rw [holds.1, valid] at missing; cases missing
  | aborts missing => rw [holds.1, valid] at missing; cases missing

section Run

variable {passwords : Passwords} {dialogues : List Dialogue} {first later : Held}
  {earlier between after rest : List Held}

theorem held_suffix (split : held passwords dialogues = earlier ++ first :: rest) :
    ∃ following, rest = held first.loop.session.passwords following := by
  induction earlier generalizing passwords dialogues with
  | nil =>
      cases dialogues with
      | nil => cases split
      | cons dialogue dialogues =>
          rw [held, List.nil_append] at split
          obtain ⟨rfl, rfl⟩ := List.cons.inj split
          split
          case isTrue => exact ⟨[], rfl⟩
          case isFalse => exact ⟨dialogues, rfl⟩
  | cons one earlier inductionHypothesis =>
      cases dialogues with
      | nil => cases split
      | cons dialogue dialogues =>
          rw [held, List.cons_append] at split
          obtain ⟨-, split⟩ := List.cons.inj split
          split at split
          case isTrue => exact absurd split (by simp)
          case isFalse => exact inductionHypothesis split

/-- A kept password is all that is sent from then on. -/
theorem between_replays {domain : Domain} (valid : strValid (some (kept domain passwords)) = true)
    (split : held passwords dialogues = between ++ later :: after) :
    kept domain later.passwords = kept domain passwords ∧
      ∀ event ∈ (between.filter fun one => one.domain = domain).flatMap Held.events,
        event = .sent (kept domain passwords) := by
  induction between generalizing passwords dialogues with
  | nil =>
      cases dialogues with
      | nil => cases split
      | cons dialogue dialogues =>
          rw [held, List.nil_append] at split
          obtain ⟨rfl, -⟩ := List.cons.inj split
          exact ⟨rfl, by simp⟩
  | cons one between inductionHypothesis =>
      cases dialogues with
      | nil => cases split
      | cons dialogue dialogues =>
          rw [held, List.cons_append] at split
          obtain ⟨rfl, tail⟩ := List.cons.inj split
          split at tail
          case isTrue => exact absurd tail (by simp)
          case isFalse =>
            by_cases here : (Held.mk passwords dialogue).domain = domain
            · subst here
              obtain ⟨stays, same⟩ := Held.replays ⟨passwords, dialogue⟩ valid
              have next := inductionHypothesis (stays ▸ valid) tail
              rw [stays] at next
              refine ⟨next.1, fun event member => ?_⟩
              simp only [List.filter_cons, decide_true, if_true, List.flatMap_cons] at member
              exact (List.mem_append.mp member).elim (same event) (next.2 event)
            · have stays : kept domain (Held.mk passwords dialogue).loop.session.passwords =
                  kept domain passwords := congrArg copyStr (Held.other ⟨passwords, dialogue⟩ here)
              have next := inductionHypothesis (stays ▸ valid) tail
              rw [stays] at next
              rwa [List.filter_cons_of_neg (by simpa using here)]

end Run

/-- In a run, a rejected password is never sent again unasked exactly when no
dialogue asks after a rejection by the same end. -/
theorem neverReplayed_iff (passwords : Passwords) (dialogues : List Dialogue) :
    NeverReplayed (held passwords dialogues) ↔ AskedNoMore (held passwords dialogues) := by
  constructor
  · intro never earlier first between later after split same rejects asks
    have failed := first.authFail_iff.mpr rejects.2
    obtain ⟨valid, isSent⟩ := first.kept_of_authFail failed rejects.1
    obtain ⟨following, isRest⟩ := held_suffix (split.trans (List.append_assoc ..))
    obtain ⟨stays, betweenSent⟩ := between_replays valid isRest.symm
    rw [← same] at stays valid
    obtain ⟨-, all⟩ := later.replays (by rw [stays]; exact valid)
    rcases isEvents : later.events with _ | ⟨event, events⟩
    · exact later.events_eq_nil_iff.mp isEvents asks
    · have isReplay := all event (by rw [isEvents]; exact List.mem_cons_self)
      rw [stays, same] at isReplay
      have typed := never earlier first between later after split same failed _ isSent [] events
        (by rw [isEvents, isReplay]; rfl)
      rw [List.append_nil] at typed
      cases betweenSent _ typed
  · intro noMore earlier first between later after split same failed password isSent before rest
      isEvents
    have asks : first.Asks := by
      by_contra silent
      rw [first.events_eq_nil_iff.mpr silent] at isSent
      cases isSent
    have silent := noMore earlier first between later after split same
      ⟨asks, first.authFail_iff.mp failed⟩
    rw [later.events_eq_nil_iff.mpr silent] at isEvents
    exact absurd isEvents (by simp)

/-- sudo turns the password away. -/
def sudoDialogue : Dialogue where
  domain := .localEnd
  globalFlags := 0
  chunks := [{ text := "[sudo] password for bob:".toList }, { text := " \r".toList },
    { text := "\n".toList }, { text := "Sorry, try again.\r".toList }]
  typed := [some "guess".toList]

/-- su asks for one. -/
def suDialogue : Dialogue where
  domain := .localEnd
  globalFlags := 0
  chunks := [{ text := "Password:".toList }]
  typed := [some "root".toList]

/-- su gets the password that sudo turned away. -/
theorem suDialogue_replays : ¬ NeverReplayed (held noPasswords [sudoDialogue, suDialogue]) := by
  intro never
  have typed := never [] ⟨noPasswords, sudoDialogue⟩ []
    ⟨(Held.mk noPasswords sudoDialogue).loop.session.passwords, suDialogue⟩ [] (by rfl) rfl (by decide)
    "guess".toList (by decide) [] [] (by decide)
  cases typed

end VpnMgr.Command
