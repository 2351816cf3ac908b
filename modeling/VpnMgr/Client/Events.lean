import VpnMgr.Client.Footprint

/-!
# What a history tells

Readings of a history: a part of a run that lacks a feature has nothing to
tell about it.
-/

namespace VpnMgr.Client

open Machine Text CString LibUseful Command Process

/-- `VpnUp` or `VpnDown` for a device. -/
inductive Bracket where
  | up (dev : CString)
  | down (dev : CString)
  deriving DecidableEq

def bracketOf : Sigma Answer → Option Bracket
  | ⟨.vpnUp dev, _⟩ => some (.up dev)
  | ⟨.vpnDown dev, _⟩ => some (.down dev)
  | _ => none

/-- The calls to `VpnUp` and `VpnDown`, in their order. -/
def brackets (made : History Answer) : List Bracket := made.filterMap bracketOf

/-- The devices of the calls to `VpnUp`. -/
def ups (made : History Answer) : List CString :=
  (brackets made).filterMap fun
    | .up dev => some dev
    | .down _ => none

/-- A `RunCommandOpen` gave a stream. -/
def launches : Sigma Answer → Bool
  | ⟨.runCommandOpen _ _, some true⟩ => true
  | _ => false

def logLineOf : Sigma Answer → Option CString
  | ⟨.streamReadLine .openvpn, line⟩ => line
  | _ => none

/-- The call found `FLAG_EXIT` clear. -/
def goesOn : Sigma Answer → Bool
  | ⟨.flagExit, false⟩ => true
  | _ => false

/-- The line that a call read, if the next call let the loop act on it. -/
def heededLine (read : Sigma Answer) (rest : History Answer) : List CString :=
  ((logLineOf read).filter fun _ => rest.head?.any goesOn).toList

/-- The lines of openvpn's log that were acted on: `FLAG_EXIT` was still clear. -/
def heededLines : History Answer → List CString
  | [] => []
  | read :: rest => heededLine read rest ++ heededLines rest

/-- The device that a call to `VpnUp` or `TunShutdown` is given. -/
def deviceGiven : Sigma Answer → Option CString
  | ⟨.vpnUp dev, _⟩ => some dev
  | ⟨.tunShutdown dev, _⟩ => some dev
  | _ => none

/-- Each such device, with the lines of the log acted on before. -/
def deviceUses (heeded : List CString) : History Answer → List (List CString × CString)
  | [] => []
  | made :: rest =>
      ((deviceGiven made).map fun dev => (heeded, dev)).toList ++
        deviceUses (heeded ++ heededLine made rest) rest

@[simp]
theorem brackets_nil : brackets [] = [] := rfl

@[simp]
theorem brackets_append (first second : History Answer) :
    brackets (first ++ second) = brackets first ++ brackets second :=
  List.filterMap_append ..

theorem ups_append (first second : History Answer) :
    ups (first ++ second) = ups first ++ ups second := by
  simp [ups]

@[simp]
theorem heededLines_nil : heededLines [] = [] := rfl

section Silent

variable {features : List Feature} {made : History Answer}

theorem filterMap_eq_nil_of_within {β : Type} {reading : Sigma Answer → Option β} {feature : Feature}
    (looks : ∀ interaction, reading interaction ≠ none → featureOf interaction.1 = feature)
    (lacks : feature ∉ features) (notPlain : feature ≠ .plain)
    (only : Only (within features) made) : made.filterMap reading = [] := by
  refine List.filterMap_eq_nil_iff.mpr fun interaction member => ?_
  by_contra read
  have inside := only interaction member
  rw [within, looks interaction read] at inside
  simp [notPlain, lacks] at inside

theorem brackets_eq_nil (only : Only (within features) made) (lacks : .bracket ∉ features) :
    brackets made = [] := by
  refine filterMap_eq_nil_of_within (fun interaction read => ?_) lacks (by decide) only
  rcases interaction with ⟨call, answer⟩
  cases call <;> first | rfl | exact absurd rfl read

theorem ups_eq_nil (only : Only (within features) made) (lacks : .bracket ∉ features) :
    ups made = [] := by
  rw [ups, brackets_eq_nil only lacks]
  rfl

theorem any_eq_false_of_within {reading : Sigma Answer → Bool} {feature : Feature}
    (looks : ∀ interaction, reading interaction = true → featureOf interaction.1 = feature)
    (lacks : feature ∉ features) (notPlain : feature ≠ .plain)
    (only : Only (within features) made) : made.any reading = false := by
  rw [List.any_eq_false]
  intro interaction member read
  have inside := only interaction member
  rw [within, looks interaction read] at inside
  simp [notPlain, lacks] at inside

theorem launches_eq_false (only : Only (within features) made) (lacks : .launch ∉ features) :
    made.any launches = false := by
  refine any_eq_false_of_within (fun interaction read => ?_) lacks (by decide) only
  rcases interaction with ⟨call, answer⟩
  cases call <;> first | rfl | exact absurd read Bool.false_ne_true

theorem logLineOf_feature {interaction : Sigma Answer} (read : logLineOf interaction ≠ none) :
    featureOf interaction.1 = .log := by
  rcases interaction with ⟨call, answer⟩
  cases call with
  | streamReadLine stream => cases stream <;> first | rfl | exact absurd rfl read
  | _ => exact absurd rfl read

theorem heededLine_eq_nil {interaction : Sigma Answer} (other : featureOf interaction.1 ≠ .log)
    (rest : History Answer) : heededLine interaction rest = [] := by
  have silent : logLineOf interaction = none := by
    by_contra read
    exact other (logLineOf_feature read)
  simp [heededLine, silent]

theorem featureOf_ne {feature : Feature} {call : Call} (inside : within features call = true)
    (lacks : feature ∉ features) (notPlain : feature ≠ .plain) : featureOf call ≠ feature := by
  rintro is
  rw [within, is] at inside
  simp [notPlain, lacks] at inside

theorem heededLines_append (only : Only (within features) made) (lacks : .log ∉ features)
    (rest : History Answer) : heededLines (made ++ rest) = heededLines rest := by
  induction made with
  | nil => rfl
  | cons interaction made inductionHypothesis =>
      have other := featureOf_ne (only interaction List.mem_cons_self) lacks (by decide)
      have tail := inductionHypothesis fun other member => only other (List.mem_cons_of_mem _ member)
      rw [List.cons_append, heededLines, heededLine_eq_nil other, tail, List.nil_append]

theorem deviceGiven_eq_none {interaction : Sigma Answer}
    (noBracket : featureOf interaction.1 ≠ .bracket)
    (noShutdown : featureOf interaction.1 ≠ .shutdown) : deviceGiven interaction = none := by
  rcases interaction with ⟨call, answer⟩
  cases call <;> first | rfl | exact absurd rfl noBracket | exact absurd rfl noShutdown

theorem deviceUses_silent {interaction : Sigma Answer} {rest : History Answer}
    (noDevice : deviceGiven interaction = none) (noLine : heededLine interaction rest = [])
    (heeded : List CString) : deviceUses heeded (interaction :: rest) = deviceUses heeded rest := by
  rw [deviceUses, noDevice, noLine, List.append_nil]
  rfl

theorem deviceUses_append (only : Only (within features) made)
    (lacks : .log ∉ features ∧ .bracket ∉ features ∧ .shutdown ∉ features)
    (heeded : List CString) (rest : History Answer) :
    deviceUses heeded (made ++ rest) = deviceUses heeded rest := by
  induction made with
  | nil => rfl
  | cons interaction made inductionHypothesis =>
      have inside := only interaction List.mem_cons_self
      have silent := heededLine_eq_nil (featureOf_ne inside lacks.1 (by decide)) (made ++ rest)
      have nothing := deviceGiven_eq_none (featureOf_ne inside lacks.2.1 (by decide))
        (featureOf_ne inside lacks.2.2 (by decide))
      have tail := inductionHypothesis fun other member => only other (List.mem_cons_of_mem _ member)
      rw [List.cons_append, deviceUses_silent nothing silent, tail]

theorem heededLines_eq_nil (only : Only (within features) made) (lacks : .log ∉ features) :
    heededLines made = [] := by
  simpa [heededLines] using heededLines_append only lacks []

end Silent

end VpnMgr.Client
