import VpnMgr.Client.Route
import VpnMgr.Machine.Ipv4
import VpnMgr.Machine.LastWrite

/-!
# Which default route is taken

The lines of `/proc/net/route` as the kernel prints them, what the two scans of
`route.c` read off such a line, and when they end with the entry of the
smallest metric.
-/

namespace VpnMgr.Client

open Machine Text CString LibUseful

abbrev Octets := Fin 256 × Fin 256 × Fin 256 × Fin 256

def upperDigit (value : Nat) : Char := "0123456789ABCDEF".toList.getD value '0'

/-- `%02X`. -/
def hexByte (value : Fin 256) : CString := [upperDigit (value / 16), upperDigit (value % 16)]

/-- `%08X` of an address in network order, on a little endian machine. -/
def hexWord (address : Octets) : CString :=
  hexByte address.2.2.2 ++ hexByte address.2.2.1 ++ hexByte address.2.1 ++ hexByte address.1

def dotted (address : Octets) : CString :=
  ".".toList.intercalate
    [decimal address.1, decimal address.2.1, decimal address.2.2.1, decimal address.2.2.2]

/-- The names the kernel gives a device: not empty, no white space. -/
structure DeviceName where
  chars : CString
  nonempty : chars ≠ []
  solid : ∀ c ∈ chars, isSpace c = false

@[ext]
theorem DeviceName.ext {first second : DeviceName} (same : first.chars = second.chars) :
    first = second := by
  cases first
  cases second
  cases same
  rfl

structure RouteEntry where
  dev : DeviceName
  destination : Octets
  gateway : Octets
  flags : Fin 256 × Fin 256
  refCnt : Nat
  use : Nat
  metric : BitVec 32
  mask : Octets
  mtu : Nat
  window : Nat
  irtt : Nat
  /-- blanks that fill the line up -/
  padding : Nat

namespace RouteEntry

/-- `%04X`. -/
def flagsText (entry : RouteEntry) : CString := hexByte entry.flags.1 ++ hexByte entry.flags.2

/-- The columns that neither scan reads. -/
def others (entry : RouteEntry) : CString :=
  "\t".toList.intercalate
    [decimal entry.refCnt, decimal entry.use, formatInt entry.metric.toInt, hexWord entry.mask,
      decimal entry.mtu, decimal entry.window, decimal entry.irtt] ++
    List.replicate entry.padding ' '

def columns (entry : RouteEntry) : CString :=
  entry.dev.chars ++ '\t' :: (hexWord entry.destination ++ '\t' ::
    (hexWord entry.gateway ++ '\t' :: (entry.flagsText ++ '\t' :: entry.others)))

def IsDefault (entry : RouteEntry) : Prop :=
  entry.destination = (0, 0, 0, 0) ∧ entry.mask = (0, 0, 0, 0)

end RouteEntry

def routeHeader : CString :=
  "Iface\tDestination\tGateway \tFlags\tRefCnt\tUse\tMetric\tMask\t\tMTU\tWindow\tIRTT ".toList

def tableText (entries : List RouteEntry) : CString :=
  routeHeader ++ '\n' :: entries.flatMap fun entry => entry.columns ++ ['\n']

def IsBest (entries : List RouteEntry) (entry : RouteEntry) : Prop :=
  entry ∈ entries ∧ entry.IsDefault ∧
    ∀ other ∈ entries, other.IsDefault → entry.metric.toNat ≤ other.metric.toNat

/-- The gateway and the device are those of one best default route, and empty
when there is no default route. -/
def RightChoice (entries : List RouteEntry) (gateway dev : CString) : Prop :=
  (∃ entry, IsBest entries entry ∧ gateway = dotted entry.gateway ∧ dev = entry.dev.chars) ∨
    ((∀ entry ∈ entries, ¬ entry.IsDefault) ∧ gateway = [] ∧ dev = [])

theorem strtolHex_hexByte (value : Fin 256) : strtolHex (hexByte value) = (value.val : Int) := by
  revert value
  decide +kernel

theorem formatInt_nat (n : Nat) : formatInt n = decimal n := by
  simp [formatInt]

theorem routeParseHexAddress_hexWord (address : Octets) :
    routeParseHexAddress (hexWord address) = dotted address := by
  have pairs : (List.range 4).map (fun i => ((hexWord address).drop (6 - 2 * i)).take 2) =
      [hexByte address.1, hexByte address.2.1, hexByte address.2.2.1, hexByte address.2.2.2] := rfl
  have width : (hexWord address).length = 8 := rfl
  simp only [routeParseHexAddress, width, pairs]
  simp [strtolHex_hexByte, formatInt_nat, dotted]

theorem dotted_injective {first second : Octets} (same : dotted first = dotted second) :
    first = second := by
  have noDot : ∀ n : Nat, '.' ∉ decimal n := not_mem_decimal rfl
  have numbers (address : Octets) : (dotted address).splitOn '.' =
      [decimal address.1, decimal address.2.1, decimal address.2.2.1, decimal address.2.2.2] :=
    List.splitOn_intercalate _ (by simp [noDot]) (by simp)
  have digits := congrArg (fun text => (text.splitOn '.').map (Nat.ofDigitChars 10 · 0)) same
  simp only [numbers, List.map_cons, List.map_nil, ofDigitChars_decimal, List.cons.injEq] at digits
  obtain ⟨one, two, three, four, -⟩ := digits
  exact Prod.ext (Fin.ext one) (Prod.ext (Fin.ext two) (Prod.ext (Fin.ext three) (Fin.ext four)))

theorem hexWord_injective {first second : Octets} (same : hexWord first = hexWord second) :
    first = second := by
  apply dotted_injective
  rw [← routeParseHexAddress_hexWord, same, routeParseHexAddress_hexWord]

theorem hexWord_eq_zero_iff (address : Octets) :
    hexWord address = "00000000".toList ↔ address = (0, 0, 0, 0) :=
  ⟨fun same => hexWord_injective (same.trans (by decide)), fun same => by subst same; rfl⟩

theorem dotted_eq_zero_iff (address : Octets) :
    dotted address = "0.0.0.0".toList ↔ address = (0, 0, 0, 0) :=
  ⟨fun same => dotted_injective (same.trans (by decide)), fun same => by subst same; rfl⟩

theorem isWordChar_of_mem_hexByte (value : Fin 256) :
    ∀ c ∈ hexByte value, isWordChar c = true := by
  have all : ∀ value : Fin 256, (hexByte value).all isWordChar = true := by decide +kernel
  exact List.all_eq_true.mp (all value)

theorem isWordChar_of_mem_hexWord {address : Octets} {c : Char} (inside : c ∈ hexWord address) :
    isWordChar c = true := by
  simp only [hexWord, List.mem_append] at inside
  rcases inside with ((inside | inside) | inside) | inside <;>
    exact isWordChar_of_mem_hexByte _ _ inside

theorem skipSpace_hexByte (value : Fin 256) (rest : CString) :
    skipSpace (hexByte value ++ rest) = hexByte value ++ rest := by
  have solid := ((isWordChar_iff _).mp
    (isWordChar_of_mem_hexByte value (upperDigit (value / 16)) (by simp [hexByte]))).1
  simp [skipSpace, hexByte, solid]

theorem skipSpace_hexWord (address : Octets) (rest : CString) :
    skipSpace (hexWord address ++ rest) = hexWord address ++ rest := by
  simp only [hexWord, List.append_assoc, skipSpace_hexByte]

/-! ## What the scans read -/

namespace RouteEntry

/-- The first three words of the line.  A final backslash of the device takes
the tab behind it into the word. -/
def words (entry : RouteEntry) : CString × CString × CString :=
  if escapesNext entry.dev.chars then
    (entry.dev.chars ++ '\t' :: hexWord entry.destination, hexWord entry.gateway,
      entry.flagsText)
  else (entry.dev.chars, hexWord entry.destination, hexWord entry.gateway)

/-- The number that both scans take for the destination. -/
def comparedAddress (entry : RouteEntry) : Octets :=
  if escapesNext entry.dev.chars then entry.gateway else entry.destination

def isTaken (entry : RouteEntry) : Bool := entry.comparedAddress = (0, 0, 0, 0)

theorem words_destination (entry : RouteEntry) :
    entry.words.2.1 = hexWord entry.comparedAddress := by
  unfold words comparedAddress
  split <;> rfl

theorem newline_not_mem_columns (entry : RouteEntry) : '\n' ∉ entry.columns := by
  have inDecimal : ∀ n : Nat, '\n' ∉ decimal n := not_mem_decimal rfl
  have inByte : ∀ value : Fin 256, '\n' ∉ hexByte value := by decide +kernel
  have inWord (address : Octets) : '\n' ∉ hexWord address := fun inside =>
    absurd (isWordChar_of_mem_hexWord inside) (by decide)
  have inInt (value : Int) : '\n' ∉ formatInt value := by
    unfold formatInt
    split <;> simp [inDecimal]
  have inDevice : '\n' ∉ entry.dev.chars := fun inside =>
    absurd (entry.dev.solid _ inside) (by decide)
  simp [columns, flagsText, others, List.intercalate, inDecimal, inByte, inWord, inInt, inDevice]

theorem skipSpace_flagsText (entry : RouteEntry) (rest : CString) :
    skipSpace (entry.flagsText ++ rest) = entry.flagsText ++ rest := by
  simp only [flagsText, List.append_assoc, skipSpace_hexByte]

theorem unbroken_flagsText (entry : RouteEntry) : Unbroken entry.flagsText :=
  (Unbroken.of_chars (isWordChar_of_mem_hexByte _)).append
    (.of_chars (isWordChar_of_mem_hexByte _))

theorem getToken_columns (entry : RouteEntry) (behind : CString) :
    let dev := getToken (some (entry.columns ++ behind)) "\\S".toList noFlags
    let destination := getToken dev.ptr "\\S".toList noFlags
    let gateway := getToken destination.ptr "\\S".toList noFlags
    (dev.text, destination.text, gateway.text) = entry.words := by
  have hexWalk (address : Octets) : Unbroken (hexWord address) :=
    .of_chars fun c inside => isWordChar_of_mem_hexWord inside
  have devWalk := unbroken_of_solid entry.dev.chars entry.dev.solid
  by_cases escapes : escapesNext entry.dev.chars = true
  · rw [if_pos escapes] at devWalk
    have wordWalk : Unbroken (entry.dev.chars ++ '\t' :: hexWord entry.destination) := by
      simpa using (devWalk '\t').append (hexWalk entry.destination)
    have split : entry.columns ++ behind =
        (entry.dev.chars ++ '\t' :: hexWord entry.destination) ++ '\t' ::
          (hexWord entry.gateway ++ '\t' :: (entry.flagsText ++ '\t' ::
            (entry.others ++ behind))) := by
      simp [columns]
    simp only [split, getToken_unbroken (.inr rfl) wordWalk, skipSpace_hexWord,
      getToken_unbroken (.inr rfl) (hexWalk _), skipSpace_flagsText,
      getToken_unbroken (.inr rfl) entry.unbroken_flagsText]
    simp [words, escapes]
  · rw [if_neg escapes] at devWalk
    have split : entry.columns ++ behind =
        entry.dev.chars ++ '\t' :: (hexWord entry.destination ++ '\t' ::
          (hexWord entry.gateway ++ '\t' :: (entry.flagsText ++ '\t' ::
            (entry.others ++ behind)))) := by
      simp [columns]
    simp only [split, getToken_unbroken (.inr rfl) devWalk, skipSpace_hexWord,
      getToken_unbroken (.inr rfl) (hexWalk _)]
    simp [words, escapes]

end RouteEntry

theorem streamReadLines_entries (entries : List RouteEntry) :
    streamReadLines (entries.flatMap fun entry => entry.columns ++ ['\n']) =
      entries.map fun entry => entry.columns ++ ['\n'] := by
  induction entries with
  | nil => rfl
  | cons entry entries inductionHypothesis =>
      simp only [List.flatMap_cons, List.append_assoc, List.singleton_append, List.map_cons]
      rw [streamReadLines_newline _ _ entry.newline_not_mem_columns, inductionHypothesis]

theorem routeEntries_tableText (entries : List RouteEntry) :
    routeEntries (tableText entries) = entries.map RouteEntry.words := by
  have header : '\n' ∉ routeHeader := by decide +kernel
  rw [routeEntries, tableText, streamReadLines_newline _ _ header, List.drop_one, List.tail_cons,
    streamReadLines_entries, List.map_map]
  exact List.map_congr_left fun entry _ => entry.getToken_columns ['\n']

def chosen (entries : List RouteEntry) : Option RouteEntry :=
  (entries.filter RouteEntry.isTaken).getLast?

theorem foldl_chosen (read : RouteEntry → CString) (entries : List RouteEntry) :
    entries.foldl (fun found entry => if entry.isTaken then read entry else found) [] =
      ((chosen entries).map read).getD [] := by
  induction entries using List.reverseRecOn with
  | nil => rfl
  | append_singleton entries entry inductionHypothesis =>
      rw [List.foldl_append, List.foldl_cons, List.foldl_nil, inductionHypothesis]
      by_cases taken : entry.isTaken = true <;> simp [chosen, taken]

theorem routeGetDefaultDev_tableText (entries : List RouteEntry) :
    routeGetDefaultDev (tableText entries) =
      ((chosen entries).map fun entry => entry.words.1).getD [] := by
  rw [routeGetDefaultDev, routeEntries_tableText, List.foldl_map, ← foldl_chosen]
  simp only [RouteEntry.words_destination, hexWord_eq_zero_iff, RouteEntry.isTaken,
    decide_eq_true_eq]

theorem routeGetDefault_tableText (entries : List RouteEntry) :
    routeGetDefault (tableText entries) =
      ((chosen entries).map fun entry => routeParseHexAddress entry.words.2.2).getD [] := by
  rw [routeGetDefault, routeEntries_tableText, List.foldl_map, ← foldl_chosen]
  simp only [RouteEntry.words_destination, routeParseHexAddress_hexWord, dotted_eq_zero_iff,
    RouteEntry.isTaken, decide_eq_true_eq]

/-- The last entry that is taken has the gateway and the device of a best
default route, and its device does not end in an escape. -/
def LastIsBest (entries : List RouteEntry) : Prop :=
  match chosen entries with
  | none => ∀ entry ∈ entries, ¬ entry.IsDefault
  | some last =>
      escapesNext last.dev.chars = false ∧
        ∃ best, IsBest entries best ∧ best.gateway = last.gateway ∧ best.dev = last.dev

theorem RouteEntry.words_plain {entry : RouteEntry} (plain : escapesNext entry.dev.chars = false) :
    entry.words = (entry.dev.chars, hexWord entry.destination, hexWord entry.gateway) := by
  simp [RouteEntry.words, plain]

theorem RouteEntry.words_ne_dev {entry : RouteEntry} (escapes : escapesNext entry.dev.chars = true)
    (dev : DeviceName) : entry.words.1 ≠ dev.chars := by
  intro same
  have tab : '\t' ∈ dev.chars := by
    rw [← same]
    simp [RouteEntry.words, escapes]
  exact absurd (dev.solid _ tab) (by decide)

theorem rightChoice_iff (entries : List RouteEntry) :
    RightChoice entries (routeGetDefault (tableText entries))
      (routeGetDefaultDev (tableText entries)) ↔ LastIsBest entries := by
  rw [routeGetDefault_tableText, routeGetDefaultDev_tableText]
  unfold RightChoice LastIsBest
  cases last : chosen entries with
  | none =>
      simp only [Option.map_none, Option.getD_none, and_true, or_iff_right_iff_imp]
      rintro ⟨best, -, -, noDevice⟩
      exact absurd noDevice.symm best.dev.nonempty
  | some entry =>
      simp only [Option.map_some, Option.getD_some]
      cases escapes : escapesNext entry.dev.chars with
      | true =>
          simp only [Bool.true_eq_false, false_and, iff_false, not_or, not_exists]
          refine ⟨fun best ⟨_, _, sameDevice⟩ => entry.words_ne_dev escapes best.dev sameDevice,
            fun ⟨_, _, noDevice⟩ => ?_⟩
          simp [RouteEntry.words, escapes] at noDevice
      | false =>
          simp only [entry.words_plain escapes, routeParseHexAddress_hexWord, true_and,
            entry.dev.nonempty, and_false, or_false]
          constructor
          · rintro ⟨best, isBest, sameGateway, sameDevice⟩
            exact ⟨best, isBest, (dotted_injective sameGateway).symm,
              DeviceName.ext sameDevice.symm⟩
          · rintro ⟨best, isBest, sameGateway, sameDevice⟩
            exact ⟨best, isBest, by rw [sameGateway], by rw [sameDevice]⟩

/-- The wired route of the smaller metric, and the wireless one that follows. -/
def twoDefaults : List RouteEntry :=
  let entry (name : CString) (nonempty : name ≠ []) (solid : name.any isSpace = false)
      (gateway : Octets) (metric : BitVec 32) : RouteEntry :=
    { dev := ⟨name, nonempty, by simpa using solid⟩, destination := (0, 0, 0, 0), gateway := gateway,
      flags := (0, 3), refCnt := 0, use := 0, metric := metric, mask := (0, 0, 0, 0),
      mtu := 0, window := 0, irtt := 0, padding := 20 }
  [entry "eth0".toList (by decide) (by decide) (192, 168, 1, 1) 100,
    entry "wlan0".toList (by decide) (by decide) (10, 0, 0, 1) 600]

theorem second_default_taken :
    routeGetDefault (tableText twoDefaults) = "10.0.0.1".toList ∧
      ¬ RightChoice twoDefaults (routeGetDefault (tableText twoDefaults))
        (routeGetDefaultDev (tableText twoDefaults)) := by
  have gateway : routeGetDefault (tableText twoDefaults) = "10.0.0.1".toList := by decide +kernel
  refine ⟨gateway, ?_⟩
  rw [gateway]
  rintro (⟨best, ⟨inside, _, least⟩, sameGateway, _⟩ | ⟨_, none, _⟩)
  · have metric := least (twoDefaults.head (by decide)) (by simp [twoDefaults]) ⟨rfl, rfl⟩
    simp only [twoDefaults, List.mem_cons, List.not_mem_nil, or_false] at inside
    rcases inside with rfl | rfl
    · exact absurd sameGateway (by decide +kernel)
    · exact absurd metric (by decide)
  · exact absurd none (by decide)

end VpnMgr.Client
