import VpnMgr.Client.Connect
import VpnMgr.Client.OpenVpnLog

/-!
# The devices of an OpenVPN run

When every device that `OpenVpnUp` brings up or shuts down is one that the
log has named.
-/

namespace VpnMgr.Client

open Machine Text CString LibUseful Command Process

/-- The device that a line of the log names. -/
def reportedDev (line : CString) : Option CString :=
  let first := nextWord (openVpnReadLineSkipDateTime (stripTrailingWhitespace line))
  let second := nextWord first.ptr
  if first.text = "net_iface_up:".toList ||
      (first.text = "TUN/TAP".toList && second.text = "device".toList) then
    some (nextWord second.ptr).text
  else none

def lastReported (lines : List CString) : Option CString := (lines.filterMap reportedDev).getLast?

/-- A device has been named, and the last one is neither empty nor the placeholder. -/
def named (lines : List CString) : Bool :=
  match lastReported lines with
  | some dev => dev ≠ "????".toList && dev ≠ []
  | none => false

/-- Every device given to `VpnUp` or `TunShutdown` was named before, and `VpnUp`
is called at most once. -/
structure TracksDevices (made : History Answer) : Prop where
  reported : ∀ use ∈ deviceUses [] made, ∃ line ∈ use.1, reportedDev line = some use.2
  real : ∀ use ∈ deviceUses [] made, use.2 ≠ "????".toList ∧ use.2 ≠ []
  once : (brackets made).countP (fun bracket => match bracket with
    | .up _ => true
    | .down _ => false) ≤ 1

/-- At most one line brings the device up, and a device is named by then, and
by the end of the log of an openvpn that was started. -/
structure WellTold (lines : List CString) (launched : Bool) : Prop where
  once : lines.countP reportsUp ≤ 1
  byUp : ∀ before line after, lines = before ++ line :: after → reportsUp line = true →
    named (before ++ [line]) = true
  byEnd : launched = true → named lines = true

theorem openVpnLine_dev (dev line : CString) :
    (openVpnLine dev (stripTrailingWhitespace line)).1 = (reportedDev line).getD dev := by
  simp only [openVpnLine, reportedDev, Bool.or_eq_true, Bool.and_eq_true, decide_eq_true_eq]
  generalize nextWord (openVpnReadLineSkipDateTime (stripTrailingWhitespace line)) = first
  by_cases up : first.text = "net_iface_up:".toList
  · rw [if_pos up, if_pos (.inl up)]
    rfl
  rw [if_neg up]
  by_cases tap : first.text = "TUN/TAP".toList
  · rw [if_pos tap]
    by_cases device : (nextWord first.ptr).text = "device".toList
    · rw [if_pos device, if_pos (.inr ⟨tap, device⟩)]
      rfl
    · rw [if_neg device, if_neg (not_or_intro up fun both => device both.2)]
      rfl
  · rw [if_neg tap, if_neg (not_or_intro up fun both => tap both.1)]
    split <;> rfl

theorem openVpnDev_eq (dev : CString) (lines : List CString) :
    openVpnDev dev lines = (lastReported lines).getD dev := by
  induction lines generalizing dev with
  | nil => rfl
  | cons line rest inductionHypothesis =>
      have step : openVpnDev dev (line :: rest) = openVpnDev ((reportedDev line).getD dev) rest := by
        rw [← openVpnLine_dev]
        rfl
      rw [step, inductionHypothesis, lastReported, lastReported, List.filterMap_cons]
      cases reportedDev line with
      | none => rfl
      | some found => simp [List.getLast?_cons]

theorem named_iff (lines : List CString) :
    named lines = true ↔ openVpnDev "????".toList lines ≠ "????".toList ∧
      openVpnDev "????".toList lines ≠ [] := by
  rw [openVpnDev_eq, named]
  cases lastReported lines <;> simp

theorem reported_of_named {lines : List CString} (isNamed : named lines = true) :
    ∃ line ∈ lines, reportedDev line = some (openVpnDev "????".toList lines) := by
  rw [openVpnDev_eq]
  rcases last : lastReported lines with _ | dev
  · simp [named, last] at isNamed
  · obtain ⟨line, member, names⟩ := List.mem_filterMap.mp (List.mem_of_getLast? last)
    exact ⟨line, member, names⟩

theorem length_openVpnUps (dev : CString) (lines : List CString) :
    (openVpnUps dev lines).length = lines.countP reportsUp := by
  induction lines generalizing dev with
  | nil => rfl
  | cons line rest inductionHypothesis =>
      have up := openVpnLine_up dev line
      simp only [openVpnUps, List.countP_cons, ← up]
      split <;> simp [*]

/-- A device is brought up with the lines acted on up to the line that does it. -/
theorem mem_logUses {start : CString} {heeded lines : List CString}
    {use : List CString × CString} :
    use ∈ logUses start heeded lines ↔ ∃ before line after, lines = before ++ line :: after ∧
      reportsUp line = true ∧
        use = (heeded ++ before ++ [line], openVpnDev start (before ++ [line])) := by
  induction lines generalizing start heeded with
  | nil => simp [logUses]
  | cons line rest inductionHypothesis =>
      have here : use ∈ (openVpnUps start [line]).map (heeded ++ [line], ·) ↔
          reportsUp line = true ∧ use = (heeded ++ [line], openVpnDev start [line]) := by
        rw [← openVpnLine_up start line]
        simp only [openVpnUps]
        split <;> simp_all [openVpnDev]
      rw [logUses_cons, List.mem_append, here, inductionHypothesis]
      constructor
      · rintro (⟨up, rfl⟩ | ⟨before, last, after, rfl, up, rfl⟩)
        · exact ⟨[], line, rest, rfl, up, by simp⟩
        · exact ⟨line :: before, last, after, rfl, up, by simp [openVpnDev]⟩
      · rintro ⟨before, last, after, split, up, rfl⟩
        cases before with
        | nil =>
            obtain ⟨rfl, rfl⟩ := List.cons.inj split
            exact .inl ⟨up, by simp⟩
        | cons head before =>
            obtain ⟨rfl, rfl⟩ := List.cons.inj split
            exact .inr ⟨before, last, after, rfl, up, by simp [openVpnDev]⟩

/-- Exactly when the log of a run names its devices in time does the run use
no other device, and bring one up no more than once. -/
theorem openVpnUp_tracksDevices_iff (settings : Settings) (fuel : Nat) (vpn : TVpn)
    (env : Environment Answer) (made : History Answer)
    (returned : openVpnUp settings fuel vpn env [] = some (.returned (), made)) :
    TracksDevices made ↔ WellTold (heededLines made) (made.any launches) := by
  have driven := openVpnUp_yields.returned returned
  have uses := driven.uses []
  have once : (brackets made).countP (fun bracket => match bracket with
      | .up _ => true
      | .down _ => false) = (heededLines made).countP reportsUp := by
    rw [driven.ups, List.countP_map, ← length_openVpnUps "????".toList]
    exact congrFun List.countP_true _
  rw [List.nil_append] at uses
  constructor
  · intro tracks
    refine ⟨once ▸ tracks.once, fun before line after split up => ?_, fun launched => ?_⟩
    · refine (named_iff _).mpr (tracks.real (before ++ [line], _) ?_)
      rw [uses]
      exact List.mem_append_left _ (mem_logUses.mpr ⟨before, line, after, split, up, rfl⟩)
    · refine (named_iff _).mpr (tracks.real (heededLines made, _) ?_)
      rw [uses, launched]
      exact List.mem_append_right _ (List.mem_singleton.mpr rfl)
  · intro told
    have fine : ∀ use ∈ deviceUses [] made,
        use.2 = openVpnDev "????".toList use.1 ∧ named use.1 = true := by
      intro use member
      rw [uses] at member
      rcases List.mem_append.mp member with inLog | atEnd
      · obtain ⟨before, line, after, split, up, rfl⟩ := mem_logUses.mp inLog
        exact ⟨rfl, told.byUp before line after split up⟩
      · split at atEnd
        case isTrue launched =>
          obtain rfl := List.mem_singleton.mp atEnd
          exact ⟨rfl, told.byEnd launched⟩
        case isFalse => exact absurd atEnd List.not_mem_nil
    refine ⟨fun use member => ?_, fun use member => ?_, once ▸ told.once⟩
    · rw [(fine use member).1]
      exact reported_of_named (fine use member).2
    · rw [(fine use member).1]
      exact (named_iff _).mp (fine use member).2

theorem openVpnUp_runs :
    ∃ made, openVpnUp plainSettings 1 { server := some "ovpn:h".toList } obligingHost [] =
        some (.returned (), made) ∧ deviceUses [] made = [([], "????".toList)] := by
  have run : (openVpnUp plainSettings 1 { server := some "ovpn:h".toList } obligingHost []).map
      (fun ended => (ended.1, deviceUses [] ended.2)) =
      some (.returned (), [([], "????".toList)]) := by decide
  obtain ⟨⟨ending, made⟩, ended, read⟩ := Option.map_eq_some_iff.mp run
  obtain ⟨rfl, uses⟩ := Prod.mk.inj read
  exact ⟨made, ended, uses⟩

theorem openVpnUp_tracksDevices_iff_silent :
    ∃ made, deviceUses [] made = [([], "????".toList)] ∧
      (TracksDevices made ↔ WellTold (heededLines made) (made.any launches)) := by
  obtain ⟨made, ended, uses⟩ := openVpnUp_runs
  exact ⟨made, uses, openVpnUp_tracksDevices_iff _ _ _ _ made ended⟩

theorem openVpnUp_shuts_placeholder_down :
    ∃ made, openVpnUp plainSettings 1 { server := some "ovpn:h".toList } obligingHost [] =
        some (.returned (), made) ∧ ¬ TracksDevices made := by
  obtain ⟨made, ended, uses⟩ := openVpnUp_runs
  refine ⟨made, ended, fun tracks => (tracks.real ([], "????".toList) ?_).1 rfl⟩
  rw [uses]
  exact List.mem_singleton.mpr rfl

end VpnMgr.Client
