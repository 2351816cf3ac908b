import VpnMgr.Config.Records
import VpnMgr.LibUseful.QuotedTokens

/-!
# One field's line

The line that `WriteConfig` writes for a field, read back on its own.
-/

namespace VpnMgr.Config

open Machine Text CString LibUseful

theorem sameNoCase_trans {a b c : CString} (left : sameNoCase a b = true) :
    sameNoCase a c = sameNoCase b c := by
  have same : a.map Char.toLower = b.map Char.toLower := by simpa [sameNoCase] using left
  simp [sameNoCase, same]

theorem sameNoCase_length {a b : CString} (same : sameNoCase a b = true) : a.length = b.length := by
  have lowered : a.map Char.toLower = b.map Char.toLower := by simpa [sameNoCase] using same
  simpa using congrArg List.length lowered

theorem applySetting_cases (home name value : CString) (s : Settings) :
    applySetting home name value s = s ∨
      ∃ key : ConfigKey, sameNoCase name key.text = true ∧
        applySetting home name value s = storeSetting home key value s := by
  by_cases known : ∃ key : ConfigKey, sameNoCase name key.text = true
  · obtain ⟨key, same⟩ := known
    refine .inr ⟨key, same, ?_⟩
    rw [← applySetting_text]
    simp only [applySetting, sameNoCase_trans same]
  · simp only [not_exists, Bool.not_eq_true] at known
    left
    simp only [applySetting, known, Bool.false_eq_true, if_false, List.foldl_fixed]

theorem ConfigKey.text_length (key : ConfigKey) : 2 ≤ key.text.length := by
  cases key <;> decide

/-- What holds of the settings with this much text ahead holds at the end of
the line, if every setting keeps it and uses up its own text. -/
theorem readConfigPairs_invariant (home : CString) (property : Nat → Settings → Prop)
    (skip : ∀ ahead left s, left ≤ ahead → property ahead s → property left s)
    (store : ∀ ahead left key value s, List.length value + 2 + left ≤ ahead →
      property ahead s → property left (storeSetting home key value s))
    (fuel : Nat) (rest : CString) (s : Settings) (holds : property rest.length s) :
    ∃ left, property left
      (readConfigPairs home fuel (getNameValuePair (some rest) [' '] ['=']) s) := by
  induction fuel generalizing rest s with
  | zero => exact ⟨_, holds⟩
  | succ fuel inductionHypothesis =>
      simp only [readConfigPairs]
      cases more : (getNameValuePair (some rest) [' '] ['=']).ptr with
      | none => exact ⟨_, holds⟩
      | some behind =>
          obtain ⟨shorter, used⟩ := getNameValuePair_length more
          refine inductionHypothesis behind _ ?_
          generalize getNameValuePair (some rest) [' '] ['='] = pair at used
          rcases applySetting_cases home pair.name pair.value s with same | ⟨key, named, stored⟩
          · rw [same]
            exact skip _ _ s shorter holds
          · have long : 2 ≤ pair.name.length := by
              rw [sameNoCase_length named]
              exact key.text_length
            rw [stored]
            exact store _ _ key _ s (used long) holds

/-- What `WriteConfig` writes for the field behind `key`. -/
def fieldLine (home : CString) (key : ConfigKey) (value : CPtr) : CString :=
  if key = .server then mCopyStr [some "Server=".toList, value, some ['\n']]
  else if key ∈ pathKeys then saveFilePath key.text value (homePrefix home)
  else saveField key.text value

theorem fieldLine_server (home : CString) (value : CPtr) :
    fieldLine home .server value = mCopyStr [some "Server=".toList, value, some ['\n']] := rfl

theorem fieldLine_path {key : ConfigKey} (home : CString) (value : CPtr) (isPath : key ∈ pathKeys) :
    fieldLine home key value = saveFilePath key.text value (homePrefix home) := by
  have notServer : key ≠ .server := by
    rintro rfl
    exact absurd isPath (by decide)
  rw [fieldLine, if_neg notServer, if_pos isPath]

theorem fieldLine_other {key : ConfigKey} (home : CString) (value : CPtr)
    (notServer : key ≠ .server) (noPath : key ∉ pathKeys) :
    fieldLine home key value = saveField key.text value := by
  rw [fieldLine, if_neg notServer, if_neg noPath]

/-- The context with this value in the field behind `key`. -/
def setField (vpn : TVpn) (key : ConfigKey) (value : CString) : TVpn :=
  match key with
  | .server => { vpn with server := some value }
  | .clientCert => { vpn with clientCert := some value }
  | .clientKey => { vpn with clientKey := some value }
  | .verifyCert | .serverCert => { vpn with verifyCert := some value }
  | .confFile => { vpn with confFile := some value }
  | .upFile => { vpn with upFile := some value }
  | .downFile => { vpn with downFile := some value }
  | .localAddress => { vpn with localAddress := some value }
  | .allowedIPs => { vpn with allowedIPs := some value }
  | .remoteDev => { vpn with remoteDev := some value }
  | .clientID => { vpn with clientID := some value }
  | .userName => { vpn with userName := some value }
  | .password => { vpn with password := some value }
  | .remoteSearchPath => { vpn with remoteSearchPath := some value }
  | .dns => { vpn with dns := some value }
  | .timeout | .protocol | .remoteSU | .localSU => vpn

def storedValue (home : CString) (vpn : TVpn) (key : ConfigKey) (value : CString) : CString :=
  if key = .allowedIPs then commaList vpn.allowedIPs (some value) else readValue home key value

variable {key : ConfigKey}

theorem storeSetting_saved (home value : CString) (s : Settings) (saved : key ∈ savedKeys) :
    storeSetting home key value s =
      { s with vpn := setField s.vpn key (storedValue home s.vpn key value) } := by
  cases key <;> first | rfl | exact absurd saved (by decide)

theorem field_setField (vpn : TVpn) (value : CString) (saved : key ∈ savedKeys) :
    field (setField vpn key value) key = some value := by
  cases key <;> first | rfl | exact absurd saved (by decide)

theorem setField_inj (vpn : TVpn) (globalFlags : FlagWord) {first second : CString}
    (saved : key ∈ savedKeys) :
    (⟨setField vpn key first, globalFlags⟩ : Settings) = ⟨setField vpn key second, globalFlags⟩ ↔
      first = second := by
  constructor
  · intro same
    have fields := congrArg (fun s : Settings => field s.vpn key) same
    simpa [field_setField vpn _ saved] using fields
  · rintro rfl
    rfl

theorem fieldLine_eq (home : CString) (saved : key ∈ savedKeys) {value : CString}
    (written : fieldLine home key (some value) ≠ []) :
    fieldLine home key (some value) =
      recordText key.text (savedValue home key value) ++ ['\n'] := by
  by_cases server : key = .server
  · subst server
    have name : "Server=".toList = ConfigKey.server.text ++ ['='] := by decide
    rw [fieldLine_server, savedValue_other home value (by decide), name]
    simp only [mCopyStr_some, mCopyStr_nil, recordText, List.append_assoc, List.cons_append,
      List.nil_append, List.append_nil]
  · by_cases isPath : key ∈ pathKeys
    · rw [fieldLine_path home _ isPath] at written ⊢
      rw [savedValue_path home value isPath]
      exact if_pos (by by_contra empty; exact written (if_neg empty))
    · rw [fieldLine_other home _ server isPath] at written ⊢
      rw [savedValue_other home value isPath]
      exact if_pos (by by_contra empty; exact written (if_neg empty))

/-- A text between two equal quotes, which `StripQuotes` takes away. -/
def wrapped (s : CString) : Bool :=
  match skipSpace s with
  | [] => false
  | c :: rest => (c = '\'' || c = '"') && (c :: rest).getLast? = some c

/-- The written value of a field is read as it stands, and nothing behind it is
taken for another setting. -/
structure Verbatim (home : CString) (key : ConfigKey) (value : CString) : Prop where
  solid : ∀ c, (savedValue home key value).getLast? = some c → isSpace c = false
  unsplit : exposed ' ' none (savedValue home key value) = false
  unwrapped : wrapped (savedValue home key value) = false
  tilde : key ∈ pathKeys → hasPrefix "~/".toList value = true →
    hasPrefix (homePrefix home) value = true

theorem stripTrailingWhitespace_eq_self_iff (s : CString) :
    stripTrailingWhitespace s = s ↔ ∀ c, s.getLast? = some c → isSpace c = false := by
  rw [stripTrailingWhitespace, dropTrailingSpace, List.rdropWhile_eq_self_iff]
  constructor
  · intro solid c last
    have nonempty : s ≠ [] := by
      rintro rfl
      simp at last
    obtain rfl : s.getLast nonempty = c := by
      simpa [List.getLast?_eq_some_getLast nonempty] using last
    simpa using solid nonempty
  · intro solid nonempty
    simpa using solid _ (List.getLast?_eq_some_getLast nonempty)

theorem stripTrailingWhitespace_of_kept {s : CString}
    (kept : stripQuotes (stripTrailingWhitespace s) = s) : stripTrailingWhitespace s = s := by
  have lengths := stripQuotes_length (stripTrailingWhitespace s)
  rw [kept] at lengths
  exact (List.rdropWhile_prefix isSpace s).eq_of_length_le lengths

theorem stripQuotes_eq_self_iff {s : CString} (solid : stripTrailingWhitespace s = s) :
    stripQuotes s = s ↔ wrapped s = false := by
  have skipped : (skipSpace s).length ≤ s.length := (List.dropWhile_suffix isSpace).length_le
  simp only [stripQuotes, wrapped, solid]
  cases shape : skipSpace s with
  | nil => simp
  | cons c rest =>
    rw [shape, List.length_cons] at skipped
    have closes : closingQuote c = (c :: rest).getLast? ↔
        ((c = '\'' || c = '"') && (c :: rest).getLast? = some c) = true := by
      simp only [closingQuote]
      split
      next quote => simpa [quote] using eq_comm
      next noQuote =>
        have last := List.getLast?_eq_some_getLast (List.cons_ne_nil c rest)
        simp [noQuote, last]
    by_cases wraps : closingQuote c = (c :: rest).getLast?
    · simp only [wraps, if_true, closes.mp wraps, Bool.true_eq_false, iff_false]
      intro same
      have lengths := congrArg List.length same
      rw [List.length_dropLast] at lengths
      omega
    · simp only [wraps, if_false, true_iff]
      simpa only [Bool.not_eq_true] using mt closes.mpr wraps

/-! ## Reading the line -/

theorem stripTrailingWhitespace_record (key : ConfigKey) (text : CString) :
    stripTrailingWhitespace (recordText key.text text ++ ['\n']) =
      recordText key.text (stripTrailingWhitespace text) := by
  have newline : stripTrailingWhitespace ['\n'] = [] := by decide
  have name : stripTrailingWhitespace (key.text ++ ['=']) = key.text ++ ['='] :=
    dropTrailingSpace_concat (by decide)
  have shape : recordText key.text text = (key.text ++ ['=']) ++ text := by simp [recordText]
  rw [stripTrailingWhitespace_append, if_pos newline, shape, stripTrailingWhitespace_append, name]
  by_cases blank : stripTrailingWhitespace text = []
  · simp [blank, recordText]
  · simp [blank, recordText]

theorem exposed_append {sep : Char} {pre : CString} (s : CString)
    (skipped : ∀ c ∈ pre, isUnquoted c = true ∧ c ≠ sep) :
    exposed sep none (pre ++ s) = exposed sep none s := by
  induction pre with
  | nil => rfl
  | cons c pre inductionHypothesis =>
      obtain ⟨unquoted, notSep⟩ := skipped c (by simp)
      have notQuote : c ≠ '"' ∧ c ≠ '\'' ∧ c ≠ '\\' := by
        simpa [isUnquoted, and_assoc] using unquoted
      rw [List.cons_append, exposed_plain _ notQuote.2.2,
        ← inductionHypothesis fun d membership => skipped d (by simp [membership])]
      simp [notSep, notQuote]

theorem record_head (key : ConfigKey) :
    ∀ c ∈ key.text ++ ['='], isUnquoted c = true ∧ c ≠ ' ' := by
  intro c membership
  rcases List.mem_append.mp membership with inKey | inSign
  · have plain := (key.text_plain c inKey).1
    refine ⟨isUnquoted_of_isPlain plain, ?_⟩
    rintro rfl
    exact absurd plain (by decide)
  · obtain rfl := List.mem_singleton.mp inSign
    decide

theorem exposed_record (key : ConfigKey) (text : CString) :
    exposed ' ' none (recordText key.text text) = exposed ' ' none text := by
  have shape : recordText key.text text = (key.text ++ ['=']) ++ text := by simp [recordText]
  rw [shape, exposed_append text (record_head key)]

theorem getToken_record (key : ConfigKey) (text : CString) :
    getToken (some (recordText key.text text)) ['='] getTokenQuotes = ⟨some text, key.text⟩ :=
  getToken_honor_append_sep text key.text_ne_nil rfl rfl (by decide) fun c membership =>
    ⟨isUnquoted_of_isPlain (key.text_plain c membership).1, (key.text_plain c membership).2⟩

theorem recordText_ne_nil (name text : CString) : recordText name text ≠ [] := by
  simp [recordText]

theorem readConfigLine_unsplit (home : CString) (key : ConfigKey) {text : CString} (s : Settings)
    (unseen : exposed ' ' none text = false) :
    readConfigLine home (recordText key.text text) s =
      storeSetting home key (stripQuotes text) s := by
  have token := getToken_unexposed (by decide) (recordText_ne_nil key.text text)
    ((exposed_record key text).trans unseen)
  have pair : getNameValuePair (some (recordText key.text text)) [' '] ['='] =
      ⟨some [], key.text, stripQuotes text⟩ := by
    simp [getNameValuePair, token, getToken_record, recordText_ne_nil]
  have done : getNameValuePair (some []) [' '] ['='] = ⟨none, [], []⟩ := by
    simp [getNameValuePair]
  simp only [readConfigLine, readConfigPairs, pair, done, applySetting_text, readConfigPairs_none]

/-- An exposed blank cuts the value, and the rest of it is read on. -/
theorem readConfigLine_split (home : CString) (key : ConfigKey) {text : CString} (s : Settings)
    (seen : exposed ' ' none text = true) :
    ∃ pre rest fuel, text = pre ++ ' ' :: rest ∧
      readConfigLine home (recordText key.text text) s =
        readConfigPairs home fuel (getNameValuePair (some rest) [' '] ['='])
          (storeSetting home key (stripQuotes pre) s) := by
  obtain ⟨pair, rest, shape, token⟩ := getToken_exposed (by decide)
    ((exposed_record key text).trans seen)
  obtain ⟨pre, rfl, rfl⟩ : ∃ pre, pair = recordText key.text pre ∧ text = pre ++ ' ' :: rest := by
    have parts : (key.text ++ ['=']) ++ text = pair ++ ' ' :: rest := by
      rw [← shape]
      simp [recordText]
    rcases List.append_eq_append_iff.mp parts with ⟨pre, whole, behind⟩ | ⟨extra, head, behind⟩
    · exact ⟨pre, by simp [whole, recordText], behind⟩
    · cases extra with
      | nil => exact ⟨[], by simpa [recordText] using head.symm, by simpa using behind.symm⟩
      | cons c extra =>
          have blank : c = ' ' := by simpa using congrArg List.head? behind.symm
          exact absurd blank (record_head key c (by simp [head])).2
  have first : getNameValuePair (some (recordText key.text (pre ++ ' ' :: rest))) [' '] ['='] =
      ⟨some rest, key.text, stripQuotes pre⟩ := by
    simp [getNameValuePair, token, getToken_record, recordText_ne_nil]
  refine ⟨pre, rest, (recordText key.text (pre ++ ' ' :: rest)).length, rfl, ?_⟩
  simp only [readConfigLine, readConfigPairs, first, applySetting_text]

/-! ## The values that come back -/

/-- Reading the field's own line puts the value into the field and nothing
anywhere else. -/
def Undisturbed (home : CString) (key : ConfigKey) (value : CString) (s : Settings) : Prop :=
  readConfigLine home (stripTrailingWhitespace (fieldLine home key (some value))) s =
    { s with vpn := setField s.vpn key value }

theorem stripQuotes_tilde (text : CString) :
    hasPrefix "~/".toList (stripQuotes (stripTrailingWhitespace ("~/".toList ++ text))) = true := by
  have kept : ∀ text : CString,
      stripTrailingWhitespace ("~/".toList ++ text) = "~/".toList ++ stripTrailingWhitespace text := by
    intro text
    have head : stripTrailingWhitespace "~/".toList = "~/".toList := by decide
    rw [stripTrailingWhitespace_append, head]
    split
    next blank => rw [blank, List.append_nil]
    next => rfl
  rw [kept, stripQuotes, kept]
  have tilde : skipSpace ("~/".toList ++ stripTrailingWhitespace (stripTrailingWhitespace text)) =
      '~' :: '/' :: stripTrailingWhitespace (stripTrailingWhitespace text) := rfl
  have last := List.getLast?_eq_some_getLast (List.cons_ne_nil '~'
    ('/' :: stripTrailingWhitespace (stripTrailingWhitespace text)))
  have open_ : closingQuote '~' = none := rfl
  simp only [tilde, last, open_, reduceCtorEq, if_false]
  exact hasPrefix_append _ _

theorem readFileConf_tilde (home rest : CString) :
    readFileConf home ("~/".toList ++ rest) = homePrefix home ++ rest := by
  rw [readFileConf, if_pos (hasPrefix_append _ _)]
  simp [mCopyStr, homePrefix]

theorem savedPath_home (home rest : CString) :
    savedPath (homePrefix home) (homePrefix home ++ rest) = "~/".toList ++ rest := by
  rw [savedPath, if_pos (hasPrefix_append _ _), List.drop_left]

/-- Which part of a written path gives the path back. -/
theorem readFileConf_eq_iff {home value text : CString}
    (stripped : text = stripQuotes (stripTrailingWhitespace (savedPath (homePrefix home) value))) :
    readFileConf home text = value ↔
      text = savedPath (homePrefix home) value ∧
        (hasPrefix "~/".toList value = true → hasPrefix (homePrefix home) value = true) := by
  constructor
  · intro read
    suffices same : text = savedPath (homePrefix home) value from
      ⟨same, (readFileConf_savedPath home value).mp (same ▸ read)⟩
    by_cases tilde : hasPrefix "~/".toList text = true
    · obtain ⟨rest, shape⟩ := (hasPrefix_iff _ _).mp tilde
      rw [shape, readFileConf_tilde] at read
      rw [shape, ← read, savedPath_home]
    · have plain : text = value := by rwa [readFileConf, if_neg tilde] at read
      by_cases inHome : hasPrefix (homePrefix home) value = true
      · obtain ⟨rest, shape⟩ := (hasPrefix_iff _ _).mp inHome
        refine absurd ?_ tilde
        rw [stripped, shape, savedPath_home]
        exact stripQuotes_tilde rest
      · rw [savedPath, if_neg inHome]
        exact plain
  · rintro ⟨same, tilde⟩
    rw [same]
    exact (readFileConf_savedPath home value).mpr tilde

theorem savedPath_length (home text : CString) :
    (savedPath (homePrefix home) (readFileConf home text)).length ≤ text.length + 1 := by
  by_cases tilde : hasPrefix "~/".toList text = true
  · obtain ⟨rest, rfl⟩ := (hasPrefix_iff _ _).mp tilde
    rw [readFileConf_tilde, savedPath_home]
    omega
  · rw [readFileConf, if_neg tilde]
    by_cases inHome : hasPrefix (homePrefix home) text = true
    · obtain ⟨rest, rfl⟩ := (hasPrefix_iff _ _).mp inHome
      rw [savedPath_home]
      simp [homePrefix]
    · rw [savedPath, if_neg inHome]
      omega

theorem readValue_eq_iff {home value text : CString}
    (stripped : text = stripQuotes (stripTrailingWhitespace (savedValue home key value))) :
    readValue home key text = value ↔
      text = savedValue home key value ∧
        (key ∈ pathKeys → hasPrefix "~/".toList value = true →
          hasPrefix (homePrefix home) value = true) := by
  by_cases isPath : key ∈ pathKeys
  · rw [savedValue_path home value isPath] at stripped ⊢
    simpa only [readValue, isPath, if_true, true_implies] using readFileConf_eq_iff stripped
  · simp [readValue, savedValue, isPath]

theorem verbatim_iff (home value : CString) :
    Verbatim home key value ↔
      exposed ' ' none (savedValue home key value) = false ∧
        readValue home key (stripQuotes (stripTrailingWhitespace (savedValue home key value))) =
          value := by
  rw [readValue_eq_iff rfl]
  constructor
  · intro verbatim
    have solid := (stripTrailingWhitespace_eq_self_iff _).mpr verbatim.solid
    refine ⟨verbatim.unsplit, ?_, verbatim.tilde⟩
    rw [solid]
    exact (stripQuotes_eq_self_iff solid).mpr verbatim.unwrapped
  · rintro ⟨unsplit, same, tilde⟩
    have solid := stripTrailingWhitespace_of_kept same
    rw [solid] at same
    exact ⟨(stripTrailingWhitespace_eq_self_iff _).mp solid, unsplit,
      (stripQuotes_eq_self_iff solid).mp same, tilde⟩

theorem field_storeSetting (home value : CString) (s : Settings) (other : ConfigKey)
    (saved : key ∈ savedKeys) :
    field (storeSetting home other value s).vpn key = field s.vpn key ∨
      field (storeSetting home other value s).vpn key =
        some (storedValue home s.vpn key value) := by
  by_cases same : other = key
  · subst same
    right
    rw [storeSetting_saved home value s saved, field_setField _ _ saved]
  by_cases aliased : other = .serverCert
  · subst aliased
    by_cases verify : key = .verifyCert
    · subst verify
      exact .inr rfl
    · left
      cases key <;> first | rfl | exact absurd rfl verify | exact absurd rfl same
  · exact .inl (field_storeSetting_of_ne home value s saved same aliased)

/-- A field that holds too little text of its line, with `left` characters of it ahead. -/
def Short (home : CString) (key : ConfigKey) (whole left : Nat) (s : Settings) : Prop :=
  ∃ text : CString, field s.vpn key = some (readValue home key text) ∧
    text.length + left + 1 ≤ whole ∧ (key = .allowedIPs ∨ text.length + 2 ≤ whole)

theorem Short.store {home : CString} {whole ahead left : Nat} {s : Settings} {other : ConfigKey}
    {value : CString} (short : Short home key whole ahead s) (saved : key ∈ savedKeys)
    (used : value.length + 2 + left ≤ ahead) :
    Short home key whole left (storeSetting home other value s) := by
  obtain ⟨text, holds, room, apart⟩ := short
  rcases field_storeSetting home value s other saved with kept | stored
  · exact ⟨text, kept.trans holds, by omega, apart⟩
  · by_cases allowed : key = .allowedIPs
    · subst allowed
      have listed : s.vpn.allowedIPs = some text := holds
      refine ⟨commaList s.vpn.allowedIPs (some value), stored, ?_, .inl rfl⟩
      rw [listed]
      unfold commaList
      split
      · simp [mCatStr]
        omega
      · rw [copyStr_some]
        omega
    · rw [storedValue, if_neg allowed] at stored
      exact ⟨value, stored, by omega, .inr (by omega)⟩

theorem Short.differs {home value : CString} {left : Nat} {s : Settings}
    (short : Short home key (savedValue home key value).length left s) :
    field s.vpn key ≠ some value := by
  obtain ⟨text, holds, room, apart⟩ := short
  rw [holds]
  intro same
  obtain rfl : readValue home key text = value := Option.some.inj same
  by_cases isPath : key ∈ pathKeys
  · have notAllowed : key ≠ .allowedIPs := by
      rintro rfl
      exact absurd isPath (by decide)
    simp only [savedValue, readValue, if_pos isPath, notAllowed, false_or] at apart
    have close := savedPath_length home text
    omega
  · simp only [savedValue, readValue, if_neg isPath] at room
    omega

theorem undisturbed_iff_storeSetting {home value : CString} {s : Settings}
    (saved : key ∈ savedKeys) (fresh : key = .allowedIPs → strValid s.vpn.allowedIPs = false)
    (text : CString) :
    storeSetting home key text s = { s with vpn := setField s.vpn key value } ↔
      readValue home key text = value := by
  have stored : storedValue home s.vpn key text = readValue home key text := by
    unfold storedValue
    split
    next allowed =>
      subst allowed
      simp [commaList, fresh rfl, readValue, pathKeys]
    next => rfl
  rw [storeSetting_saved home text s saved, stored, setField_inj _ _ saved]

/-- On a context that lists no address yet, the exact condition. -/
theorem undisturbed_iff {home value : CString} {s : Settings} (saved : key ∈ savedKeys)
    (written : fieldLine home key (some value) ≠ [])
    (fresh : key = .allowedIPs → strValid s.vpn.allowedIPs = false) :
    Undisturbed home key value s ↔ Verbatim home key value := by
  rw [Undisturbed, fieldLine_eq home saved written, stripTrailingWhitespace_record, verbatim_iff]
  have stripped := stripTrailingWhitespace_length (savedValue home key value)
  by_cases seen : exposed ' ' none (stripTrailingWhitespace (savedValue home key value)) = true
  · obtain ⟨pre, rest, fuel, shape, read⟩ := readConfigLine_split home key s seen
    have solid : rest ≠ [] := by
      rintro rfl
      have idle : stripTrailingWhitespace (pre ++ [' ']) = pre ++ [' '] := by
        rw [← shape]
        exact List.rdropWhile_idempotent isSpace _
      have blank := (stripTrailingWhitespace_eq_self_iff _).mp idle ' ' (by simp)
      exact absurd blank (by decide)
    have lengths := congrArg List.length shape
    simp only [List.length_append, List.length_cons] at lengths
    have restLength := List.length_pos_of_ne_nil solid
    have value1 := stripQuotes_length pre
    have stored := (undisturbed_iff_storeSetting saved fresh (stripQuotes pre)).mpr
      (rfl : readValue home key (stripQuotes pre) = _)
    have first : Short home key (savedValue home key value).length rest.length
        (storeSetting home key (stripQuotes pre) s) := by
      refine ⟨stripQuotes pre, ?_, by omega, .inr (by omega)⟩
      rw [stored, field_setField _ _ saved]
    obtain ⟨left, last⟩ := readConfigPairs_invariant home
      (Short home key (savedValue home key value).length)
      (fun ahead left s less => fun ⟨text, holds, room, apart⟩ => ⟨text, holds, by omega, apart⟩)
      (fun ahead left other text s used short => short.store saved used) fuel rest _ first
    constructor
    · intro same
      rw [← read] at last
      rw [same] at last
      exact absurd (field_setField _ _ saved) last.differs
    · rintro ⟨unsplit, same⟩
      rw [stripTrailingWhitespace_of_kept ((readValue_eq_iff rfl).mp same).1, unsplit] at seen
      exact absurd seen (by decide)
  · rw [Bool.not_eq_true] at seen
    rw [readConfigLine_unsplit home key s seen, undisturbed_iff_storeSetting saved fresh]
    constructor
    · intro same
      refine ⟨?_, same⟩
      rwa [stripTrailingWhitespace_of_kept ((readValue_eq_iff rfl).mp same).1] at seen
    · exact And.right

theorem storeSetting_allowedIPs_grows (home value : CString) (key : ConfigKey) (s : Settings) :
    (copyStr s.vpn.allowedIPs).length ≤
      (copyStr (storeSetting home key value s).vpn.allowedIPs).length := by
  cases key
  case allowedIPs =>
    show _ ≤ (commaList s.vpn.allowedIPs (some value)).length
    unfold commaList
    split
    · simp [mCatStr]
    next noList =>
      rcases list : s.vpn.allowedIPs with _ | _ | ⟨c, rest⟩
      · simp [copyStr]
      · simp
      · simp [list] at noList
  all_goals exact le_rfl

theorem readConfigLine_allowedIPs_grows (home text : CString) (s : Settings) :
    (copyStr s.vpn.allowedIPs).length ≤
      (copyStr (readConfigLine home text s).vpn.allowedIPs).length := by
  obtain ⟨-, grown⟩ := readConfigPairs_invariant home
    (fun _ t => (copyStr s.vpn.allowedIPs).length ≤ (copyStr t.vpn.allowedIPs).length)
    (fun _ _ _ _ holds => holds)
    (fun _ _ other value t _ holds =>
      holds.trans (storeSetting_allowedIPs_grows home value other t)) (text.length + 1) text s le_rfl
  exact grown

theorem allowedIPs_disturbed (home value : CString) :
    ∃ s, ¬ Undisturbed home .allowedIPs value s := by
  refine ⟨⟨{ allowedIPs := some (value ++ ['x']) }, 0⟩, fun same => ?_⟩
  have grown := readConfigLine_allowedIPs_grows home
    (stripTrailingWhitespace (fieldLine home .allowedIPs (some value)))
    ⟨{ allowedIPs := some (value ++ ['x']) }, 0⟩
  rw [same] at grown
  simp only [setField, copyStr_some, List.length_append, List.length_singleton] at grown
  omega

/-- On every context the line of a field sets that field to the written value,
and nothing else, exactly if the value is verbatim and the field is not a list
of addresses, which is added to the list the context has already. -/
theorem fieldLine_undisturbed_iff {home value : CString} (saved : key ∈ savedKeys)
    (written : fieldLine home key (some value) ≠ []) :
    ((∀ s, Undisturbed home key value s) ↔ key ≠ .allowedIPs ∧ Verbatim home key value) ∧
      ∀ s, (key = .allowedIPs → strValid s.vpn.allowedIPs = false) →
        (Undisturbed home key value s ↔ Verbatim home key value) := by
  refine ⟨⟨fun every => ?_, fun ⟨notAllowed, verbatim⟩ s => ?_⟩,
    fun s fresh => undisturbed_iff saved written fresh⟩
  · refine ⟨?_, (undisturbed_iff saved written fun _ => rfl).mp (every ⟨{}, 0⟩)⟩
    rintro rfl
    obtain ⟨s, disturbed⟩ := allowedIPs_disturbed home value
    exact disturbed (every s)
  · exact (undisturbed_iff saved written fun allowed => absurd allowed notAllowed).mpr verbatim

theorem fieldLine_undisturbed_dns :
    ((∀ s, Undisturbed "/home/u".toList .dns "10.0.0.1".toList s) ↔
        ConfigKey.dns ≠ .allowedIPs ∧ Verbatim "/home/u".toList .dns "10.0.0.1".toList) ∧
      ∀ s, (ConfigKey.dns = .allowedIPs → strValid s.vpn.allowedIPs = false) →
        (Undisturbed "/home/u".toList .dns "10.0.0.1".toList s ↔
          Verbatim "/home/u".toList .dns "10.0.0.1".toList) :=
  fieldLine_undisturbed_iff (by decide) (by decide)

/-- The password `a RemoteSU=none` loses its second half and takes both remote
privilege bits. -/
theorem password_disturbs_remoteSU :
    '\n' ∉ "a RemoteSU=none".toList ∧ '\r' ∉ "a RemoteSU=none".toList ∧
      ConfigKey.password ∈ savedKeys ∧
      ¬ Undisturbed "/home/u".toList .password "a RemoteSU=none".toList
          ⟨{}, flagRemoteSudo ||| flagRemoteSu⟩ := by
  refine ⟨by decide, by decide, by decide, fun same => ?_⟩
  have flags := congrArg Settings.globalFlags same
  revert flags
  decide +kernel

end VpnMgr.Config
