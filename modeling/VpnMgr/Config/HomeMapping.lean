import VpnMgr.Config.Fields
import VpnMgr.Config.Store

/-!
# Configurations on another machine

A path below the home directory is written with `~/`, so that the file can be
read in another home directory.  `SaveFilePath` looks at the start of the whole
value, and a list of scripts has one path only at its start.
-/

namespace VpnMgr.Config

open Machine Text CString LibUseful

theorem not_mem_of_mem_splitOn {sep : Char} {text item : CString}
    (listed : item ∈ text.splitOn sep) : sep ∉ item := by
  induction whole : text.length using Nat.strong_induction_on generalizing text with
  | _ length inductionHypothesis =>
      by_cases inside : sep ∈ text
      · obtain ⟨front, behind, rfl, apart⟩ := List.eq_append_cons_of_mem inside
        rw [List.splitOn_append_cons_self_of_not_mem apart] at listed
        rcases List.mem_cons.mp listed with rfl | later
        · exact apart
        · refine inductionHypothesis behind.length ?_ later rfl
          rw [← whole, List.length_append, List.length_cons]
          omega
      · rw [List.splitOn_eq_singleton inside] at listed
        obtain rfl := List.mem_singleton.mp listed
        exact inside

theorem map_eq_self {f : CString → CString} {texts : List CString} (same : ∀ c ∈ texts, f c = c) :
    texts.map f = texts :=
  (List.map_congr_left same).trans (List.map_id' texts)

def colonTail (texts : List CString) : CString := texts.flatMap (':' :: ·)

theorem intercalate_colon (text : CString) (texts : List CString) :
    [':'].intercalate (text :: texts) = text ++ colonTail texts := by
  induction texts generalizing text with
  | nil => simp [colonTail, List.intercalate_singleton]
  | cons next texts inductionHypothesis =>
      rw [List.intercalate_cons_cons, inductionHypothesis]
      simp [colonTail]

theorem colonTail_length {f g : CString → CString} (longer : ∀ c, (f c).length ≤ (g c).length)
    (texts : List CString) :
    (colonTail (texts.map f)).length ≤ (colonTail (texts.map g)).length := by
  induction texts with
  | nil => exact le_rfl
  | cons c texts inductionHypothesis =>
      have here := longer c
      simp only [colonTail, List.map_cons, List.flatMap_cons, List.length_append,
        List.length_cons] at inductionHypothesis ⊢
      omega

theorem colonTail_inj {f g : CString → CString} (longer : ∀ c, (f c).length ≤ (g c).length)
    {texts : List CString} (same : colonTail (texts.map f) = colonTail (texts.map g)) :
    ∀ c ∈ texts, f c = g c := by
  induction texts with
  | nil => simp
  | cons c texts inductionHypothesis =>
      have here := longer c
      have behind := colonTail_length longer texts
      simp only [colonTail, List.map_cons, List.flatMap_cons, List.cons_append,
        List.cons.injEq, true_and] at same behind inductionHypothesis
      have lengths := congrArg List.length same
      simp only [List.length_append] at lengths
      obtain ⟨first, rest⟩ := List.append_inj same (by omega)
      exact List.forall_mem_cons.mpr ⟨first, inductionHypothesis rest⟩

/-- A path below the home directory `h1` lies at the same place below `h2`. -/
def moveHome (h1 h2 path : CString) : CString :=
  if hasPrefix (homePrefix h1) path then homePrefix h2 ++ path.drop (homePrefix h1).length
  else path

def listKeys : List ConfigKey := [.upFile, .downFile]

/-- What a value stands for in the other home directory. -/
def moved (h1 h2 : CString) (key : ConfigKey) (value : CString) : CString :=
  if key ∈ listKeys then [':'].intercalate ((value.splitOn ':').map (moveHome h1 h2))
  else moveHome h1 h2 value

/-- The value after it was saved in `h1` and loaded in `h2`. -/
def loaded (h1 h2 : CString) (key : ConfigKey) (value : CString) (s : Settings) : CPtr :=
  field (readConfig h2 (some (saveFilePath key.text (some value) (homePrefix h1))) s).vpn key

/-- No script behind the first lies in the home directory, unless it is the
same one. -/
def ListPortable (h1 h2 value : CString) : Prop :=
  if ':' ∈ h1 then hasPrefix (homePrefix h1) value = true → h1 = h2
  else ∀ c ∈ (value.splitOn ':').tail, hasPrefix (homePrefix h1) c = true → h1 = h2

/-- The value is no path that begins with a literal `~/`, and no list with a
script in the home directory behind the first one. -/
structure Portable (h1 h2 : CString) (key : ConfigKey) (value : CString) : Prop where
  tilde : hasPrefix "~/".toList value = false
  list : key ∈ listKeys → ListPortable h1 h2 value

theorem moveHome_inside (h1 h2 rest : CString) :
    moveHome h1 h2 (homePrefix h1 ++ rest) = homePrefix h2 ++ rest := by
  rw [moveHome, if_pos (hasPrefix_append _ _), List.drop_left]

theorem moveHome_outside {h1 h2 path : CString} (outside : hasPrefix (homePrefix h1) path ≠ true) :
    moveHome h1 h2 path = path := if_neg outside

theorem moveHome_length (h1 h2 : CString) :
    (∀ c : CString, c.length ≤ (moveHome h1 h2 c).length) ∨
      ∀ c : CString, (moveHome h1 h2 c).length ≤ c.length := by
  have length : ∀ c, (moveHome h1 h2 c).length = c.length ∨
      (moveHome h1 h2 c).length + h1.length = h2.length + c.length := by
    intro c
    by_cases inside : hasPrefix (homePrefix h1) c = true
    · obtain ⟨rest, rfl⟩ := (hasPrefix_iff _ _).mp inside
      right
      rw [moveHome_inside]
      simp only [homePrefix, List.length_append, List.length_singleton]
      omega
    · left
      rw [moveHome_outside inside]
  by_cases shorter : h1.length ≤ h2.length
  · exact .inl fun c => by have := length c; omega
  · exact .inr fun c => by have := length c; omega

theorem moveHome_eq_iff (h1 h2 path : CString) :
    moveHome h1 h2 path = path ↔ (hasPrefix (homePrefix h1) path = true → h1 = h2) := by
  by_cases inside : hasPrefix (homePrefix h1) path = true
  · obtain ⟨rest, rfl⟩ := (hasPrefix_iff _ _).mp inside
    rw [moveHome_inside, List.append_left_inj, homePrefix, homePrefix, List.append_left_inj]
    exact ⟨fun same _ => same.symm, fun same => (same inside).symm⟩
  · rw [moveHome_outside inside]
    exact iff_of_true rfl fun isInside => absurd isInside inside

theorem moved_self (home : CString) (key : ConfigKey) (value : CString) :
    moved home home key value = value := by
  have stays : moveHome home home = id :=
    funext fun path => (moveHome_eq_iff home home path).mpr fun _ => rfl
  unfold moved
  split
  · rw [stays, List.map_id, List.intercalate_splitOn]
  · rw [stays, id]

theorem loaded_eq {key : ConfigKey} (isPath : key ∈ pathKeys) (h1 h2 : CString) {value : CString}
    (clean : Clean value) (nonempty : value ≠ []) (s : Settings) :
    loaded h1 h2 key value s = some (readFileConf h2 (savedPath (homePrefix h1) value)) := by
  have line : saveFilePath key.text (some value) (homePrefix h1) =
      recordLines [(key, savedPath (homePrefix h1) value)] ++ [] := by
    simp [saveFilePath, (strValid_some_iff _).mpr nonempty, recordLines]
  have read := readConfig_records h2 [(key, savedPath (homePrefix h1) value)]
    (by simpa using savedPath_clean clean) [] s
  rw [loaded, line, read, readConfig_nil]
  simp only [pathKeys, List.mem_cons, List.not_mem_nil, or_false] at isPath
  rcases isPath with rfl | rfl | rfl | rfl | rfl | rfl <;> rfl

theorem homePrefix_absolute (home : HomeDir) : ∃ rest, homePrefix home.text = '/' :: rest := by
  unfold homePrefix HomeDir.text
  cases home.names with
  | nil => exact ⟨_, rfl⟩
  | cons name names => exact ⟨_, rfl⟩

theorem tilde_outside (home : HomeDir) {path : CString} (tilde : hasPrefix "~/".toList path = true) :
    hasPrefix (homePrefix home.text) path ≠ true := by
  obtain ⟨rest, rfl⟩ := (hasPrefix_iff _ _).mp tilde
  obtain ⟨names, absolute⟩ := homePrefix_absolute home
  rw [absolute]
  intro inside
  obtain ⟨behind, same⟩ := (hasPrefix_iff _ _).mp inside
  exact absurd (List.cons.inj same).1 (by decide)

theorem readFileConf_saved_tilde (home1 home2 : HomeDir) {path : CString}
    (tilde : hasPrefix "~/".toList path = true) :
    (readFileConf home2.text (savedPath (homePrefix home1.text) path)).head? = some '/' := by
  obtain ⟨names, absolute⟩ := homePrefix_absolute home2
  rw [savedPath, if_neg (tilde_outside home1 tilde)]
  obtain ⟨rest, rfl⟩ := (hasPrefix_iff _ _).mp tilde
  rw [readFileConf_tilde, absolute]
  rfl

theorem readFileConf_saved (home1 home2 : HomeDir) {path : CString}
    (noTilde : hasPrefix "~/".toList path = false) :
    readFileConf home2.text (savedPath (homePrefix home1.text) path) =
      moveHome home1.text home2.text path := by
  by_cases inside : hasPrefix (homePrefix home1.text) path = true
  · obtain ⟨rest, rfl⟩ := (hasPrefix_iff _ _).mp inside
    rw [savedPath_home, readFileConf_tilde, moveHome_inside]
  · rw [savedPath, if_neg inside, readFileConf, noTilde, moveHome_outside inside]
    rfl

/-! ## Lists of scripts -/

theorem colon_list (value : CString) :
    ∃ first rest, value.splitOn ':' = first :: rest ∧ value = first ++ colonTail rest := by
  cases split : value.splitOn ':' with
  | nil => exact absurd split (List.splitOn_ne_nil _ _)
  | cons first rest =>
      refine ⟨first, rest, rfl, ?_⟩
      rw [← intercalate_colon, ← split, List.intercalate_splitOn]

theorem moved_list {key : ConfigKey} (isList : key ∈ listKeys) (h1 h2 : CString) {first : CString}
    {rest : List CString} {value : CString} (split : value.splitOn ':' = first :: rest) :
    moved h1 h2 key value = moveHome h1 h2 first ++ colonTail (rest.map (moveHome h1 h2)) := by
  rw [moved, if_pos isList, split, List.map_cons, intercalate_colon]

/-- Whether a list begins in a home directory is up to its first script. -/
theorem hasPrefix_first {h first : CString} (noColon : ':' ∉ h) (rest : List CString) :
    hasPrefix (homePrefix h) (first ++ colonTail rest) = true ↔
      hasPrefix (homePrefix h) first = true := by
  have colons : ':' ∉ homePrefix h := by simpa [homePrefix] using noColon
  generalize homePrefix h = front at colons
  constructor
  · intro inside
    obtain ⟨behind, same⟩ := (hasPrefix_iff _ _).mp inside
    rcases List.append_eq_append_iff.mp same.symm with ⟨more, inFirst, -⟩ | ⟨more, longer, tail⟩
    · exact (hasPrefix_iff _ _).mpr ⟨more, inFirst⟩
    · cases more with
      | nil => exact (hasPrefix_iff _ _).mpr ⟨[], by simpa using longer.symm⟩
      | cons c more =>
          cases rest with
          | nil => simp [colonTail] at tail
          | cons script rest =>
              obtain ⟨rfl, -⟩ := List.cons.inj tail
              exact absurd (longer ▸ (by simp)) colons
  · intro inside
    obtain ⟨behind, rfl⟩ := (hasPrefix_iff _ _).mp inside
    rw [List.append_assoc]
    exact hasPrefix_append _ _

/-- A list that begins with `~/` stays so when it is moved. -/
theorem moved_tilde (home1 home2 : HomeDir) {key : ConfigKey} {value : CString}
    (tilde : hasPrefix "~/".toList value = true) :
    (moved home1.text home2.text key value).head? = some '~' := by
  by_cases isList : key ∈ listKeys
  · obtain ⟨first, rest, split, whole⟩ := colon_list value
    obtain ⟨behind, begins⟩ := (hasPrefix_iff _ _).mp tilde
    rw [moved_list isList _ _ split]
    rw [whole] at begins
    cases first with
    | nil =>
        cases rest with
        | nil => exact absurd begins (by simp [colonTail])
        | cons script rest => exact absurd (List.cons.inj begins).1 (by decide)
    | cons c first =>
        have isTilde : c = '~' := (List.cons.inj begins).1
        subst isTilde
        have outside : hasPrefix (homePrefix home1.text) ('~' :: first) ≠ true := by
          obtain ⟨names, absolute⟩ := homePrefix_absolute home1
          rw [absolute]
          intro inside
          obtain ⟨more, same⟩ := (hasPrefix_iff _ _).mp inside
          exact absurd (List.cons.inj same).1 (by decide)
        rw [moveHome_outside outside]
        rfl
  · rw [moved, if_neg isList, moveHome_outside (tilde_outside home1 tilde)]
    obtain ⟨rest, rfl⟩ := (hasPrefix_iff _ _).mp tilde
    rfl

/-- Moving a whole list by its start moves its first script only. -/
theorem moveHome_list_iff (h1 h2 : CString) {key : ConfigKey} (isList : key ∈ listKeys)
    (value : CString) :
    moveHome h1 h2 value = moved h1 h2 key value ↔ ListPortable h1 h2 value := by
  obtain ⟨first, rest, split, whole⟩ := colon_list value
  unfold ListPortable
  by_cases colon : ':' ∈ h1
  · have outside : ∀ c ∈ value.splitOn ':', hasPrefix (homePrefix h1) c ≠ true := by
      intro c listed inside
      obtain ⟨behind, rfl⟩ := (hasPrefix_iff _ _).mp inside
      exact not_mem_of_mem_splitOn listed (by simp [homePrefix, colon])
    have stays : moved h1 h2 key value = value := by
      have same : (value.splitOn ':').map (moveHome h1 h2) = value.splitOn ':' :=
        map_eq_self fun c listed => moveHome_outside (outside c listed)
      rw [moved, if_pos isList, same, List.intercalate_splitOn]
    rw [if_pos colon, stays, moveHome_eq_iff]
  · rw [if_neg colon, split, List.tail_cons, moved_list isList h1 h2 split]
    have begins := @hasPrefix_first h1 first colon rest
    have moves : moveHome h1 h2 value = moveHome h1 h2 first ++ colonTail rest := by
      rw [whole]
      by_cases inside : hasPrefix (homePrefix h1) first = true
      · obtain ⟨behind, rfl⟩ := (hasPrefix_iff _ _).mp inside
        rw [List.append_assoc, moveHome_inside, moveHome_inside, List.append_assoc]
      · rw [moveHome_outside inside, moveHome_outside (mt begins.mp inside)]
    have scripts : colonTail rest = colonTail (rest.map (moveHome h1 h2)) ↔
        ∀ c ∈ rest, moveHome h1 h2 c = c := by
      constructor
      · intro same
        rcases moveHome_length h1 h2 with longer | shorter
        · have each := @colonTail_inj id _ longer rest (by rw [List.map_id]; exact same)
          exact fun c listed => (each c listed).symm
        · exact @colonTail_inj _ id shorter rest (by rw [List.map_id]; exact same.symm)
      · intro each
        rw [map_eq_self each]
    rw [moves, List.append_right_inj, scripts]
    exact forall₂_congr fun c _ => moveHome_eq_iff h1 h2 c

/-- A saved value is loaded in another home directory as what it stands for
there exactly if it is portable; in the same home directory that is the value. -/
theorem loaded_moved_iff {key : ConfigKey} (isPath : key ∈ pathKeys) (home1 home2 : HomeDir)
    {value : CString} (clean : Clean value) (nonempty : value ≠ []) (s : Settings) :
    (loaded home1.text home2.text key value s = some (moved home1.text home2.text key value) ↔
        Portable home1.text home2.text key value) ∧
      (home1 = home2 → moved home1.text home2.text key value = value) := by
  refine ⟨?_, fun same => same ▸ moved_self home1.text key value⟩
  rw [loaded_eq isPath _ _ clean nonempty, Option.some.injEq]
  by_cases tilde : hasPrefix "~/".toList value = true
  · refine iff_of_false (fun same => ?_) fun portable => ?_
    · have slash := readFileConf_saved_tilde home1 home2 tilde
      rw [same, moved_tilde home1 home2 tilde] at slash
      exact absurd slash (by decide)
    · rw [portable.tilde] at tilde
      exact absurd tilde (by decide)
  · rw [Bool.not_eq_true] at tilde
    rw [readFileConf_saved home1 home2 tilde]
    by_cases isList : key ∈ listKeys
    · rw [moveHome_list_iff _ _ isList]
      exact ⟨fun list => ⟨tilde, fun _ => list⟩, fun portable => portable.list isList⟩
    · refine iff_of_true ?_ ⟨tilde, fun list => absurd list isList⟩
      rw [moved, if_neg isList]

def alsHome : HomeDir := ⟨["home".toList, "al".toList], by decide⟩

theorem properNames_bobsOther :
    ∀ name ∈ ["home".toList, "bob".toList], ProperName name := by
  decide

def bobsOther : HomeDir := ⟨["home".toList, "bob".toList], properNames_bobsOther⟩

theorem loaded_moved_iff_cert :
    (loaded alsHome.text bobsOther.text .clientCert "/home/al/c.crt".toList ⟨{}, 0⟩ =
          some (moved alsHome.text bobsOther.text .clientCert "/home/al/c.crt".toList) ↔
        Portable alsHome.text bobsOther.text .clientCert "/home/al/c.crt".toList) ∧
      (alsHome = bobsOther →
        moved alsHome.text bobsOther.text .clientCert "/home/al/c.crt".toList =
          "/home/al/c.crt".toList) :=
  loaded_moved_iff (by decide) alsHome bobsOther (by decide) (by decide) ⟨{}, 0⟩

/-- The second script of a list still lies in the first home directory. -/
theorem second_script_stays :
    ConfigKey.upFile ∈ pathKeys ∧ Clean "/home/al/a:/home/al/b".toList ∧
      loaded alsHome.text bobsOther.text .upFile "/home/al/a:/home/al/b".toList ⟨{}, 0⟩ =
        some "/home/bob/a:/home/al/b".toList ∧
      moved alsHome.text bobsOther.text .upFile "/home/al/a:/home/al/b".toList =
        "/home/bob/a:/home/bob/b".toList := by
  refine ⟨by decide, by decide, by decide +kernel, by decide +kernel⟩

end VpnMgr.Config
