import VpnMgr.Command.Passwords

/-!
# Passwords stay in their domain

Where each password that is sent comes from, and on what the bytes sent to one
end depend.
-/

namespace VpnMgr.Command

open Machine Text CString LibUseful

def passwordLog (held : List Held) : List (Domain × PasswordEvent) :=
  held.flatMap fun one => one.events.map (one.domain, ·)

/-- Each password that is sent is empty or was typed before at a prompt for its domain. -/
def Sound (log : List (Domain × PasswordEvent)) : Prop :=
  ∀ before domain password after, log = before ++ (domain, .sent password) :: after →
    password = [] ∨ (domain, .typed password) ∈ before

def dialoguesOf (domain : Domain) (held : List Held) : List Dialogue :=
  (held.filter fun one => one.domain = domain).map Held.dialogue

def writtenTo (domain : Domain) (held : List Held) : List CString :=
  (held.filter fun one => one.domain = domain).flatMap fun one => one.loop.sent

def Known (passwords : Passwords) (log : List (Domain × PasswordEvent)) : Prop :=
  ∀ domain, kept domain passwords = [] ∨ (domain, .typed (kept domain passwords)) ∈ log

section Provenance

variable {log : List (Domain × PasswordEvent)} {domain : Domain} {password : CString}
  {passwords : Passwords}

theorem Sound.nil : Sound [] := by
  intro before domain password after split
  exact absurd split.symm (by simp)

theorem Sound.concat {event : Domain × PasswordEvent} (sound : Sound log)
    (justified : ∀ domain password, event = (domain, .sent password) →
      password = [] ∨ (domain, .typed password) ∈ log) : Sound (log ++ [event]) := by
  intro before domain password after split
  rcases List.eq_nil_or_concat after with rfl | ⟨front, last, rfl⟩
  · obtain ⟨rfl, same⟩ := List.append_inj' split rfl
    exact justified domain password (List.cons.inj same).1
  · rw [List.concat_eq_append, ← List.cons_append, ← List.append_assoc] at split
    exact sound before domain password front (List.append_inj' split rfl).1

theorem Sound.typed (sound : Sound log) : Sound (log ++ [(domain, .typed password)]) :=
  sound.concat fun _ _ isSent => by cases isSent

theorem Sound.sent (sound : Sound log) (justified : password = [] ∨ (domain, .typed password) ∈ log) :
    Sound (log ++ [(domain, .sent password)]) :=
  sound.concat fun _ _ isSent => by cases isSent; exact justified

theorem Known.append (known : Known passwords log) (more : List (Domain × PasswordEvent)) :
    Known passwords (log ++ more) :=
  fun domain => (known domain).imp id (List.mem_append_left more)

theorem Known.update {password : CPtr} (known : Known passwords log)
    (isTyped : (domain, .typed (copyStr password)) ∈ log) :
    Known (setPassword domain password passwords) log := by
  intro other
  rw [kept_setPassword]
  split
  case isTrue same =>
    subst same
    exact .inr isTyped
  case isFalse => exact known other

theorem Transacts.sound {loop after : ReadLoop} {new : List PasswordEvent}
    (done : Transacts domain loop after new) (known : Known loop.session.passwords log)
    (sound : Sound log) :
    Known after.session.passwords (log ++ new.map (domain, ·)) ∧
      Sound (log ++ new.map (domain, ·)) := by
  have asked : ∀ password : CString, Sound (log ++ [(domain, .typed password), (domain, .sent password)]) :=
    fun password => by
      have typed := @Sound.typed log domain password sound
      have sent := @Sound.sent _ domain password typed (.inr (by simp))
      simpa using sent
  cases done with
  | replays => exact ⟨known.append _, sound.sent (known domain)⟩
  | asks => exact ⟨(known.append _).update (by simp), asked _⟩
  | aborts => exact ⟨known.append _, asked _⟩

theorem Held.sound {held : Held} (known : Known held.passwords log) (sound : Sound log) :
    Known held.loop.session.passwords (log ++ passwordLog [held]) ∧
      Sound (log ++ passwordLog [held]) := by
  have all := @readLoop_induction held.domain
    (fun loop events => Known loop.session.passwords (log ++ events.map (held.domain, ·)) ∧
      Sound (log ++ events.map (held.domain, ·)))
    (fun _ events _ _ holds done => by
      rw [List.map_append, ← List.append_assoc]
      exact done.sound holds.1 holds.2)
    (fun _ _ _ _ holds => holds) held.dialogue.chunks
    (.start held.session held.dialogue.typed) [] (by simpa using ⟨known, sound⟩)
  have only : passwordLog [held] = held.events.map (held.domain, ·) := List.append_nil _
  rw [only]
  exact all

theorem held_sound (passwords : Passwords) (dialogues : List Dialogue)
    (known : Known passwords log) (sound : Sound log) :
    Sound (log ++ passwordLog (held passwords dialogues)) := by
  induction dialogues generalizing passwords log with
  | nil => simpa [held, passwordLog] using sound
  | cons dialogue rest inductionHypothesis =>
      obtain ⟨knownAfter, soundAfter⟩ := @Held.sound log ⟨passwords, dialogue⟩ known sound
      have split : ∀ later, passwordLog (⟨passwords, dialogue⟩ :: later) =
          passwordLog [⟨passwords, dialogue⟩] ++ passwordLog later :=
        fun later => by simp [passwordLog]
      rw [held, split, ← List.append_assoc]
      split
      case isTrue => simpa [passwordLog] using soundAfter
      case isFalse => exact inductionHypothesis _ knownAfter soundAfter

end Provenance

/-! ## What the bytes depend on -/

/-- Two loops with the same variables but for the passwords of the other end. -/
structure Alike (domain : Domain) (first second : ReadLoop) : Prop where
  passwords : first.session.passwords domain.passwordType =
    second.session.passwords domain.passwordType
  globalFlags : first.session.globalFlags = second.session.globalFlags
  typed : first.typed = second.typed
  sent : first.sent = second.sent
  result : first.result = second.result

section Alike

variable {domain : Domain} {first second : ReadLoop}

theorem Transacts.alike (alike : Alike domain first second) {after again : ReadLoop}
    {new newAgain : List PasswordEvent} (done : Transacts domain first after new)
    (doneAgain : Transacts domain second again newAgain) : Alike domain after again := by
  have same : kept domain first.session.passwords = kept domain second.session.passwords :=
    congrArg copyStr alike.passwords
  cases done with
  | replays valid =>
      cases doneAgain with
      | replays => exact ⟨alike.passwords, alike.globalFlags, alike.typed,
          by dsimp only; rw [alike.sent, same], rfl⟩
      | asks missing => rw [← same, valid] at missing; cases missing
      | aborts missing => rw [← same, valid] at missing; cases missing
  | asks missing isTyped valid =>
      cases doneAgain with
      | replays validAgain => rw [← same, missing] at validAgain; cases validAgain
      | asks _ isTypedAgain =>
          obtain rfl := isTyped.symm.trans (alike.typed ▸ isTypedAgain)
          refine ⟨?_, alike.globalFlags, congrArg List.tail alike.typed, ?_, rfl⟩
          · dsimp only
            rw [setPassword_passwordType, setPassword_passwordType, if_pos rfl, if_pos rfl]
          · dsimp only
            rw [alike.sent]
      | aborts _ empty => rw [← alike.typed, isTyped, valid] at empty; cases empty
  | aborts missing empty =>
      cases doneAgain with
      | replays validAgain => rw [← same, missing] at validAgain; cases validAgain
      | asks _ isTyped valid => rw [← isTyped, ← alike.typed, empty] at valid; cases valid
      | aborts => exact ⟨alike.passwords, alike.globalFlags, congrArg List.tail alike.typed,
          by dsimp only; rw [alike.sent, alike.typed], rfl⟩

theorem Alike.signalled (alike : Alike domain first second) (interrupted : Bool) :
    Alike domain { first with session := first.session.signalled interrupted }
      { second with session := second.session.signalled interrupted } := by
  cases interrupted with
  | false => exact ⟨alike.passwords, alike.globalFlags, alike.typed, alike.sent, alike.result⟩
  | true => exact ⟨alike.passwords, congrArg (·.raise flagExit) alike.globalFlags, alike.typed,
      alike.sent, alike.result⟩

theorem runCommandReadChunk_alike (alike : Alike domain first second) (text : CString) :
    Alike domain (runCommandReadChunk domain.name "su/sudo".toList text first).1
        (runCommandReadChunk domain.name "su/sudo".toList text second).1 ∧
      (runCommandReadChunk domain.name "su/sudo".toList text first).2 =
        (runCommandReadChunk domain.name "su/sudo".toList text second).2 := by
  have transacted := (transacts domain first).alike alike (transacts domain second)
  simp only [runCommandReadChunk]
  cases reactionTo (stripTrailingWhitespace (stripLeadingWhitespace text)) with
  | authFail => exact ⟨⟨alike.passwords, alike.globalFlags, alike.typed, alike.sent, rfl⟩, rfl⟩
  | started => exact ⟨⟨alike.passwords, alike.globalFlags, alike.typed, alike.sent, rfl⟩, rfl⟩
  | finished => exact ⟨alike, rfl⟩
  | password => exact ⟨transacted, by dsimp only; rw [transacted.result]⟩
  | output => exact ⟨alike, by dsimp only; rw [alike.result]⟩

theorem readStep_alike (alike : Alike domain first second) (chunk : Chunk) :
    Alike domain (readStep domain chunk first).1 (readStep domain chunk second).1 ∧
      (readStep domain chunk first).2 = (readStep domain chunk second).2 := by
  unfold readStep
  by_cases valid : strValid (some chunk.text) = true
  · simp only [if_pos valid]
    obtain ⟨read, breaks⟩ := runCommandReadChunk_alike alike chunk.text
    have signalled := read.signalled chunk.interrupted
    exact ⟨signalled, by rw [breaks, signalled.globalFlags]⟩
  · simp only [if_neg valid]
    have signalled := alike.signalled chunk.interrupted
    exact ⟨signalled, by rw [signalled.globalFlags]⟩

theorem runCommandReadLoop_alike (alike : Alike domain first second) (chunks : List Chunk) :
    Alike domain (runCommandReadLoop domain.name "su/sudo".toList chunks first)
      (runCommandReadLoop domain.name "su/sudo".toList chunks second) := by
  induction chunks generalizing first second with
  | nil => exact alike
  | cons chunk rest inductionHypothesis =>
      obtain ⟨step, breaks⟩ := readStep_alike alike chunk
      rw [runCommandReadLoop_cons, runCommandReadLoop_cons, breaks]
      split
      case isTrue => exact step
      case isFalse => exact inductionHypothesis step

end Alike

def writtenAlone : Passwords → List Dialogue → List CString
  | _, [] => []
  | passwords, dialogue :: rest =>
      let first : Held := ⟨passwords, dialogue⟩
      first.loop.sent ++ writtenAlone first.loop.session.passwords rest

/-- What is written to one end is what its dialogues write on their own. -/
theorem writtenTo_eq (domain : Domain) (dialogues : List Dialogue) {passwords alone : Passwords}
    (same : passwords domain.passwordType = alone domain.passwordType) :
    writtenTo domain (held passwords dialogues) =
      writtenAlone alone (dialoguesOf domain (held passwords dialogues)) := by
  induction dialogues generalizing passwords alone with
  | nil => rfl
  | cons dialogue rest inductionHypothesis =>
      by_cases here : dialogue.domain = domain
      · have alike : Alike domain (Held.mk passwords dialogue).loop (Held.mk alone dialogue).loop := by
          subst here
          have start : Alike dialogue.domain
              (.start (Held.mk passwords dialogue).session dialogue.typed)
              (.start (Held.mk alone dialogue).session dialogue.typed) :=
            ⟨same, rfl, rfl, rfl, rfl⟩
          exact runCommandReadLoop_alike start dialogue.chunks
        have isHere : decide ((Held.mk passwords dialogue).domain = domain) = true :=
          decide_eq_true here
        rw [held]
        simp only [writtenTo, dialoguesOf, List.filter_cons, isHere, if_true, List.flatMap_cons,
          List.map_cons, writtenAlone, alike.sent]
        refine congrArg _ ?_
        split
        case isTrue => rfl
        case isFalse => exact inductionHypothesis alike.passwords
      · have isOther : decide ((Held.mk passwords dialogue).domain = domain) = false :=
          decide_eq_false here
        rw [held]
        simp only [writtenTo, dialoguesOf, List.filter_cons, isOther, Bool.false_eq_true, if_false]
        split
        case isTrue => rfl
        case isFalse =>
          exact inductionHypothesis ((Held.other ⟨passwords, dialogue⟩ here).trans same)

/-- In every run, all that is written to a stream comes from prompts of its own
domain, and depends on the dialogues of its own domain alone. -/
theorem passwords_stay (dialogues : List Dialogue) :
    (∀ one ∈ held noPasswords dialogues,
        one.loop.sent = one.events.flatMap PasswordEvent.written) ∧
      Sound (passwordLog (held noPasswords dialogues)) ∧
      ∀ (domain : Domain) (others : List Dialogue),
        dialoguesOf domain (held noPasswords dialogues) =
            dialoguesOf domain (held noPasswords others) →
          writtenTo domain (held noPasswords dialogues) =
            writtenTo domain (held noPasswords others) := by
  refine ⟨fun one _ => one.sent, ?_, fun domain others same => ?_⟩
  · have sound := @held_sound [] noPasswords dialogues (fun _ => .inl rfl) .nil
    rwa [List.nil_append] at sound
  · rw [writtenTo_eq domain dialogues rfl, same, ← writtenTo_eq domain others rfl]

end VpnMgr.Command
