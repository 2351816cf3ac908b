import VpnMgr.LibUseful.Tokenizer

/-!
# The host of a URL

`URL.c`, as far as the host, the port and the user of a URL go.
-/

namespace VpnMgr.LibUseful

open VpnMgr.Text CString

structure HostDetails where
  host : CString := []
  port : CString := []
  user : CString := []
  deriving DecidableEq

/-- `ParseHostDetailsExtractAuth`: what is left of the data, and the user. -/
def parseHostDetailsExtractAuth (data : CString) : CString × CString :=
  if data.contains '@' then
    let auth := getToken (some data) ['@'] getTokenQuotes
    (copyStr auth.ptr, (getToken (some auth.text) [':'] noFlags).text)
  else (data, [])

/-- `ParseHostDetails`.  The bracketed host of an IPv6 address keeps its brackets. -/
def parseHostDetails (data : CString) : HostDetails :=
  let (rest, user) := parseHostDetailsExtractAuth data
  if rest.head? = some '[' then
    let host := rest.takeWhile (· != ']')
    let behind := rest.dropWhile (· != ']')
    let port := behind.drop 1
    { host := host ++ behind.take 1, port := if port.head? = some ':' then port.drop 1 else port,
      user := user }
  else
    let host := getToken (some rest) [':'] noFlags
    { host := host.text, port := copyStr host.ptr, user := user }

/-- `GetToken(str, "/|?", &Token, GETTOKEN_MULTI_SEP)`. -/
def hostPart : CString → CString
  | [] => []
  | '\\' :: c :: rest => '\\' :: c :: hostPart rest
  | c :: rest => if c = '/' || c = '?' then [] else c :: hostPart rest

/-- The port that `DecodeURL` guesses for a protocol. -/
def guessedPort (proto : CString) : CString :=
  if proto = "http".toList then "80".toList
  else if proto = "https".toList then "443".toList
  else if proto = "ssh".toList then "22".toList
  else if proto = "ftp".toList then "21".toList
  else if proto = "telnet".toList then "23".toList
  else if proto = "smtp".toList then "25".toList
  else if proto = "mailto".toList then "25".toList
  else []

/-- `DecodeURL`. -/
def decodeURL (guessPort : Bool) (url : CString) : HostDetails :=
  let proto := (url.takeWhile (· != ':')).map Char.toLower
  let hasProto := url.contains ':'
  let rest :=
    if hasProto && !proto.contains '.' then
      ((url.dropWhile (· != ':')).drop 1).dropWhile (· = '/')
    else url
  let details := parseHostDetails (hostPart rest)
  if guessPort && details.port = [] && hasProto then { details with port := guessedPort proto }
  else details

theorem extractAuth_mem {data : CString} (clean : Clean data) {c : Char}
    (inside : c ∈ (parseHostDetailsExtractAuth data).1) : c ∈ data := by
  unfold parseHostDetailsExtractAuth at inside
  split at inside
  case isTrue separated =>
    obtain ⟨before, rest, rfl, absent⟩ := List.eq_append_cons_of_mem (by simpa using separated)
    have skipped : ∀ d ∈ before, isUnquoted d = true ∧ d ≠ '@' := by
      intro d member
      refine ⟨isUnquoted_of_isPlain (clean d (by simp [member])), ?_⟩
      rintro rfl
      exact absent member
    have pointed : (getToken (some (before ++ '@' :: rest)) ['@'] getTokenQuotes).ptr =
        some rest := by
      rw [getToken_eq_postProcess (by simp) rfl (by decide), List.length_append,
        getTokenFindSeparator_skip _ _ _ skipped, List.length_cons,
        getTokenFindSeparator_here _ _ _ (by decide)]
      rfl
    simp only [pointed, copyStr_some] at inside
    simp [inside]
  case isFalse => exact inside

theorem getToken_mem {text : CString} {sep c : Char}
    (inside : c ∈ (getToken (some text) [sep] noFlags).text ∨
      c ∈ copyStr (getToken (some text) [sep] noFlags).ptr) : c ∈ text := by
  by_cases empty : text = []
  · subst empty
    simp [copyStr] at inside
  rcases getToken_cases text sep empty with ⟨_, last⟩ | ⟨before, rest, rfl, _, token⟩
  · simpa [last] using inside
  · rw [token] at inside
    rcases inside with inside | inside
    · simp [show c ∈ before from inside]
    · simp [show c ∈ rest from inside]

theorem parseHostDetails_mem {data : CString} (clean : Clean data) {c : Char}
    (inside : c ∈ (parseHostDetails data).host ∨ c ∈ (parseHostDetails data).port) : c ∈ data := by
  refine extractAuth_mem clean ?_
  unfold parseHostDetails at inside
  cases details : parseHostDetailsExtractAuth data with
  | mk rest user =>
      rw [details] at inside
      simp only at inside ⊢
      split at inside
      case isFalse => exact getToken_mem inside
      case isTrue =>
        have behind {d : Char} (member : d ∈ rest.dropWhile (· != ']')) : d ∈ rest :=
          (List.dropWhile_suffix _).subset member
        simp only [List.mem_append] at inside
        rcases inside with (host | bracket) | port
        · exact (List.takeWhile_prefix _).subset host
        · exact behind (List.mem_of_mem_take bracket)
        · split at port
          · exact behind (List.mem_of_mem_drop (List.mem_of_mem_drop port))
          · exact behind (List.mem_of_mem_drop port)

theorem hostPart_mem {text : CString} {c : Char} (inside : c ∈ hostPart text) : c ∈ text := by
  fun_induction hostPart text with
  | case1 => exact inside
  | case2 d rest inductionHypothesis =>
      rcases List.mem_cons.mp inside with rfl | inside
      · simp
      · rcases List.mem_cons.mp inside with rfl | inside
        · simp
        · simp [inductionHypothesis inside]
  | case3 d rest notEscape stop => exact absurd inside List.not_mem_nil
  | case4 d rest notEscape goesOn inductionHypothesis =>
      rcases List.mem_cons.mp inside with rfl | inside
      · simp
      · simp [inductionHypothesis inside]

/-- The host and the port of a clean URL are clean. -/
theorem decodeURL_clean (guessPort : Bool) {url : CString} (clean : Clean url) :
    Clean (decodeURL guessPort url).host ∧ Clean (decodeURL guessPort url).port := by
  have guessedClean (proto : CString) : Clean (guessedPort proto) := by
    unfold guessedPort
    repeat' refine iteInduction (fun _ => ?_) (fun _ => ?_)
    all_goals decide
  generalize restEq : (if (url.contains ':' &&
      !((url.takeWhile (· != ':')).map Char.toLower).contains '.') = true then
    ((url.dropWhile (· != ':')).drop 1).dropWhile (· = '/') else url) = rest
  have restClean : Clean rest := by
    subst restEq
    split
    · exact fun c inside => clean c ((List.dropWhile_suffix _).subset
        (List.mem_of_mem_drop ((List.dropWhile_suffix _).subset inside)))
    · exact clean
  have partClean : Clean (hostPart rest) := fun c inside => restClean c (hostPart_mem inside)
  have detailsClean : Clean (parseHostDetails (hostPart rest)).host ∧
      Clean (parseHostDetails (hostPart rest)).port :=
    ⟨fun c inside => partClean c (parseHostDetails_mem partClean (.inl inside)),
      fun c inside => partClean c (parseHostDetails_mem partClean (.inr inside))⟩
  unfold decodeURL
  simp only [restEq]
  split
  · exact ⟨detailsClean.1, guessedClean _⟩
  · exact detailsClean

end VpnMgr.LibUseful
