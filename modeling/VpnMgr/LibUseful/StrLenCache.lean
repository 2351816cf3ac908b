import Mathlib.Logic.Function.Basic
import VpnMgr.LibUseful.Strings

/-!
# The cache of string lengths

`StrLenCache.c` and the functions of `String.c`, `Stream.c` and
`GeneralFunctions.c` that rely on it, over a heap of texts.  Everywhere else
the texts are values, which is justified here: the cache changes none of them.
-/

namespace VpnMgr.LibUseful.Cached

open VpnMgr.Text CString

abbrev Address := Nat

/-- A `TStrLenCacheEntry` in use. -/
structure CacheEntry where
  str : Address
  len : Nat
  deriving DecidableEq

/-- `StrLenCache`, which has no slots before its first use. -/
abbrev Cache := List (Option CacheEntry)

/-- The allocated texts and the cache. -/
structure StrState where
  heap : Address → CPtr
  cache : Cache

/-- What `realloc` and `rand` answer. -/
structure Choice where
  place : Address
  rand : Nat

def isFor (str : Address) (slot : Option CacheEntry) : Bool := slot.any fun entry => entry.str = str

/-- `StrLenCacheFind`. -/
def strLenCacheFind (cache : Cache) (str : Address) : Option Nat := cache.findIdx? (isFor str)

/-- `StrLenCacheDel`; for NULL it finds an empty slot at most. -/
def strLenCacheDel (cache : Cache) (str : Option Address) : Cache :=
  match str.bind (strLenCacheFind cache) with
  | some index => cache.set index none
  | none => cache

def emptySlot (cache : Cache) : Option Nat :=
  (cache.reverse.findIdx? Option.isNone).map fun index => cache.length - 1 - index

/-- `StrLenCacheAdd`, unless `LU_STRLEN_NOCACHE` is set. -/
def strLenCacheAdd (enabled : Bool) (cache : Cache) (str : Address) (len rand : Nat) : Cache :=
  if enabled then
    let cache := if cache = [] then List.replicate 10 none else cache
    match strLenCacheFind cache str with
    | some index => cache.set index (if len < 100 then none else some ⟨str, len⟩)
    | none =>
        if 100 < len then
          cache.set ((emptySlot cache).getD (rand % cache.length)) (some ⟨str, len⟩)
        else cache
  else cache

/-- `StrLenFromCache`. -/
def strLenFromCache (enabled : Bool) (s : StrState) (str : Option Address) : Nat :=
  match str.bind s.heap with
  | none => 0
  | some [] => 0
  | some (c :: rest) =>
      let plain := (c :: rest).length
      if enabled then
        match str.bind (strLenCacheFind s.cache) with
        | some index => ((s.cache[index]?.join).map CacheEntry.len).getD plain
        | none => plain
      else plain

namespace StrState

def write (s : StrState) (str : Address) (text : CString) : StrState :=
  { s with heap := Function.update s.heap str (some text) }

def contents (s : StrState) (str : Address) : CString := copyStr (s.heap str)

@[simp]
theorem write_heap_self (s : StrState) (str : Address) (text : CString) :
    (s.write str text).heap str = some text := Function.update_self _ _ _

theorem write_heap_of_ne (s : StrState) {str other : Address} (different : other ≠ str)
    (text : CString) : (s.write str text).heap other = s.heap other :=
  Function.update_of_ne different _ _

end StrState

/-- What may be asked of `realloc` and `calloc`, and what they may answer. -/
def Allocates (heap : Address → CPtr) (str : Option Address) (place : Address) : Prop :=
  match str with
  | none => heap place = none
  | some old => heap old ≠ none ∧ (place = old ∨ heap place = none)

instance (heap : Address → CPtr) (str : Option Address) (place : Address) :
    Decidable (Allocates heap str place) := by
  unfold Allocates
  split <;> infer_instance

/-- The heap after `realloc`, or `calloc` for NULL. -/
def relocate (heap : Address → CPtr) (str : Option Address) (place : Address) : Address → CPtr :=
  match str with
  | none => Function.update heap place (some [])
  | some old => Function.update (Function.update heap old none) place (heap old)

/-- `SetStrLen`; the string is at the place that was chosen. -/
def setStrLen (enabled : Bool) (s : StrState) (str : Option Address) (len : Nat) (choice : Choice) :
    Option StrState :=
  if Allocates s.heap str choice.place then
    some { heap := relocate s.heap str choice.place
           cache := strLenCacheAdd enabled (strLenCacheDel s.cache str) choice.place len choice.rand }
  else none

def splice (text : CString) (offset : Nat) (bytes : CString) : CString :=
  if offset ≤ text.length then text.take offset ++ bytes else text

/-- A string that is read: text of the program, or a pointer. -/
inductive Source where
  | literal (text : CString)
  | pointer (str : Option Address)

namespace Source

def read (s : StrState) : Source → CPtr
  | literal text => some text
  | pointer str => str.bind s.heap

def lenFromCache (enabled : Bool) (s : StrState) : Source → Nat
  | literal text => text.length
  | pointer str => strLenFromCache enabled s str

end Source

/-! ## The functions -/

section Functions

variable (enabled : Bool) (s : StrState)

/-- `CopyStrLen`. -/
def copyStrLen (dest : Option Address) (src : Source) (len : Nat) (choice : Choice) :
    Option StrState := do
  let text := LibUseful.copyStr (src.read s)
  let s ← setStrLen enabled s dest len choice
  pure (s.write choice.place (text.take len))

/-- `CatStrLen`. -/
def catStrLen (dest : Option Address) (src : Source) (len : Nat) (choice : Choice) :
    Option StrState := do
  let text := LibUseful.copyStr (src.read s)
  let dstlen := strLenFromCache enabled s dest
  let s ← setStrLen enabled s dest (dstlen + len) choice
  pure (s.write choice.place (splice (s.contents choice.place) dstlen (text.take len)))

/-- `CatStr`. -/
def catStr (dest : Option Address) (src : Source) (choice : Choice) : Option StrState :=
  catStrLen enabled s dest src (LibUseful.copyStr (src.read s)).length choice

/-- `*Dest = 0`, where there is a string. -/
def clear (dest : Option Address) : Option StrState :=
  match dest with
  | none => some s
  | some str => if s.heap str = none then none else some (s.write str [])

/-- `CopyStr`. -/
def copyStr (dest : Option Address) (src : Source) (choice : Choice) : Option StrState := do
  let s ← clear s dest
  catStr enabled s dest src choice

/-- The arguments up to the NULL that ends them. -/
def arguments : List Source → List CString
  | [] => []
  | part :: rest =>
      match part.read s with
      | none => []
      | some text => text :: arguments rest

/-- The loop of `VCatStr`. -/
def vCatLoop (enabled : Bool) : List CString → StrState → Address → Nat → List Choice →
    Option StrState
  | [], s, ptr, len, _ => some (s.write ptr (splice (s.contents ptr) len []))
  | [] :: rest, s, ptr, len, choices => vCatLoop enabled rest s ptr len choices
  | _ :: _, _, _, _, [] => none
  | part :: rest, s, ptr, len, choice :: later => do
      let s ← setStrLen enabled s (some ptr) (len + part.length) choice
      vCatLoop enabled rest (s.write choice.place (splice (s.contents choice.place) len part))
        choice.place (len + part.length) later

/-- `VCatStr`, which is `MCatStr`. -/
def vCatStr (dest : Option Address) (parts : List Source) (choices : List Choice) :
    Option StrState :=
  let texts := arguments s parts
  match dest, choices with
  | some ptr, choices =>
      if s.heap ptr = none then none
      else if texts = [] then some s
      else vCatLoop enabled texts s ptr (strLenFromCache enabled s dest) choices
  | none, [] => none
  | none, choice :: later => do
      let len := (parts.head?.map (Source.lenFromCache enabled s)).getD 0
      let s ← setStrLen enabled s none len choice
      vCatLoop enabled texts s choice.place 0 later

/-- `MCopyStr`. -/
def mCopyStr (dest : Option Address) (parts : List Source) (choices : List Choice) :
    Option StrState := do
  let s ← clear s dest
  vCatStr enabled s dest parts choices

/-- `StrTrunc`. -/
def strTrunc (str : Address) (len rand : Nat) : Option StrState :=
  (s.heap str).map fun text =>
    if len < text.length then
      { heap := (s.write str (text.take len)).heap
        cache := strLenCacheAdd enabled s.cache str len rand }
    else s

/-- What is left when the characters before a position are looked at from the
last one on. -/
def stripFrom (strips : Char → Bool) (text : CString) (len : Nat) : CString :=
  let kept := (text.take len).rdropWhile strips
  if kept = text.take len then text else kept

/-- `StripTrailingWhitespace` and `StripCRLF`. -/
def stripTrailing (strips : Char → Bool) (str : Address) : Option StrState :=
  (s.heap str).map fun text =>
    let len := strLenFromCache enabled s (some str)
    if 0 < len then
      { heap := (s.write str (stripFrom strips text len)).heap
        cache := strLenCacheDel s.cache (some str) }
    else s

/-- `StripLeadingWhitespace`. -/
def stripLeadingWhitespace (str : Address) (rand : Nat) : Option StrState :=
  (s.heap str).map fun text =>
    { heap := (s.write str (skipSpace text)).heap
      cache := strLenCacheAdd enabled s.cache str (skipSpace text).length rand }

/-- `strrep`; `none` is the NUL character. -/
def strrep (str : Address) (oldchar : Char) (newchar : Option Char) : Option StrState :=
  (s.heap str).map fun text =>
    match newchar with
    | some new => s.write str (text.map fun c => if c = oldchar then new else c)
    | none =>
        { heap := (s.write str (text.takeWhile (· ≠ oldchar))).heap
          cache := strLenCacheDel s.cache (some str) }

/-- `Destroy`. -/
def destroy (str : Address) : Option StrState :=
  (s.heap str).map fun _ =>
    { heap := Function.update s.heap str none, cache := strLenCacheDel s.cache (some str) }

/-- `vsnprintf` into a string that was made long enough for so many characters. -/
def printInto (place : Address) (room : Nat) (text : CString) : StrState :=
  s.write place (text.take room)

/-- `VFormatStr`; `text` is what the format comes to. -/
def formatStr (dest : Option Address) (format text : CString) (forFormat first second : Choice) :
    Option StrState := do
  let s ← copyStr enabled s none (.literal format) forFormat
  let inc := 4 * format.length
  let s ← setStrLen enabled s dest (inc + 1) first
  let s := printInto s first.place inc text
  let (s, place) ← if inc < text.length then do
      let s ← setStrLen enabled s (some first.place) text.length second
      pure (printInto s second.place text.length text, second.place)
    else pure (s, first.place)
  destroy { s with cache := strLenCacheAdd enabled s.cache place text.length second.rand }
    forFormat.place

/-- The loop of `STREAMReadToTerminator`: the bytes that each round transfers. -/
def transferLoop (enabled : Bool) : List CString → StrState → Address → CString → List Choice →
    Option StrState
  | [], s, _, _, _ => some s
  | _ :: _, _, _, _, [] => none
  | chunk :: rest, s, ptr, read, choice :: later =>
      if Allocates s.heap (some ptr) choice.place then
        let read := read ++ chunk
        let heap := relocate s.heap (some ptr) choice.place
        transferLoop enabled rest
          { heap := Function.update heap choice.place (some (read.takeWhile (· ≠ '\x00')))
            cache := strLenCacheAdd enabled s.cache choice.place read.length choice.rand }
          choice.place read later
      else none

/-- `STREAMReadToTerminator`, where it returns a string. -/
def streamReadToTerminator (dest : Option Address) (chunks : List CString) (choice : Choice)
    (choices : List Choice) : Option StrState := do
  let s ← copyStr enabled s dest (.literal []) choice
  transferLoop enabled chunks s choice.place [] choices

end Functions

/-! ## What the cache knows -/

def Unique (cache : Cache) : Prop :=
  ∀ (i j : Nat) (first second : CacheEntry), cache[i]? = some (some first) →
    cache[j]? = some (some second) → first.str = second.str → i = j

/-- An entry has the length of its text; an empty text is never looked up. -/
def Fits (heap : Address → CPtr) (entry : CacheEntry) : Prop :=
  ∀ text, heap entry.str = some text → text = [] ∨ text.length = entry.len

/-- All entries fit, but possibly the one of this string. -/
structure FitsBut (s : StrState) (str : Option Address) : Prop where
  unique : Unique s.cache
  fits : ∀ entry, some entry ∈ s.cache → some entry.str ≠ str → Fits s.heap entry

structure Ready (s : StrState) (str : Address) (len : Nat) : Prop where
  others : FitsBut s (some str)
  own : ∀ entry, some entry ∈ s.cache → entry.str = str → entry.len = len

def Sound (s : StrState) : Prop := FitsBut s none

section Cache

variable {cache : Cache} {str : Address} {len : Nat}

theorem strLenCacheFind_some {index : Nat} (found : strLenCacheFind cache str = some index) :
    ∃ entry, cache[index]? = some (some entry) ∧ entry.str = str := by
  obtain ⟨inside, isOne, -⟩ := List.findIdx?_eq_some_iff_getElem.mp found
  obtain ⟨entry, isEntry, same⟩ := (Option.any_eq_true _ _).mp isOne
  refine ⟨entry, ?_, by simpa using same⟩
  rw [List.getElem?_eq_getElem inside]
  exact congrArg some isEntry

theorem strLenCacheFind_none (absent : strLenCacheFind cache str = none) :
    ∀ entry, some entry ∈ cache → entry.str ≠ str := by
  intro entry member same
  have isNot := List.findIdx?_eq_none_iff.mp absent (some entry) member
  simp [isFor, same] at isNot

theorem mem_set_cases {index : Nat} {slot : Option CacheEntry} {entry : CacheEntry}
    (member : some entry ∈ cache.set index slot) :
    slot = some entry ∨ ∃ place, place ≠ index ∧ cache[place]? = some (some entry) := by
  obtain ⟨place, isPlace⟩ := List.mem_iff_getElem?.mp member
  rw [List.getElem?_set] at isPlace
  split at isPlace
  · split at isPlace
    · exact .inl (Option.some.inj isPlace)
    · cases isPlace
  · rename_i different
    exact .inr ⟨place, Ne.symm different, isPlace⟩

theorem Unique.set_none (unique : Unique cache) (index : Nat) : Unique (cache.set index none) := by
  intro i j first second isFirst isSecond same
  rw [List.getElem?_set] at isFirst isSecond
  split at isFirst
  · split at isFirst <;> cases isFirst
  · split at isSecond
    · split at isSecond <;> cases isSecond
    · exact unique i j first second isFirst isSecond same

/-- A new entry, where no other slot has one for its string. -/
theorem Unique.set_some (unique : Unique cache) {index : Nat} (entry : CacheEntry)
    (fresh : ∀ (i : Nat) (other : CacheEntry), cache[i]? = some (some other) →
      other.str = entry.str → i = index) :
    Unique (cache.set index (some entry)) := by
  intro i j first second isFirst isSecond same
  rw [List.getElem?_set] at isFirst isSecond
  split at isFirst
  · rename_i isIndex
    split at isSecond
    · rename_i isIndexToo
      rw [← isIndex, ← isIndexToo]
    · split at isFirst
      · obtain rfl := Option.some.inj (Option.some.inj isFirst)
        rw [← isIndex]
        exact (fresh j second isSecond same.symm).symm
      · cases isFirst
  · split at isSecond
    · rename_i isIndex
      split at isSecond
      · obtain rfl := Option.some.inj (Option.some.inj isSecond)
        rw [← isIndex]
        exact fresh i first isFirst same
      · cases isSecond
    · exact unique i j first second isFirst isSecond same

theorem strLenCacheDel_spec (unique : Unique cache) (str : Option Address) :
    Unique (strLenCacheDel cache str) ∧ ∀ entry, some entry ∈ strLenCacheDel cache str →
      some entry ∈ cache ∧ some entry.str ≠ str := by
  unfold strLenCacheDel
  cases str with
  | none => exact ⟨unique, fun entry member => ⟨member, by simp⟩⟩
  | some str =>
      rw [Option.bind_some]
      cases found : strLenCacheFind cache str with
      | none =>
          refine ⟨unique, fun entry member => ⟨member, fun same => ?_⟩⟩
          exact strLenCacheFind_none found entry member (Option.some.inj same)
      | some index =>
          obtain ⟨old, isOld, isStr⟩ := strLenCacheFind_some found
          refine ⟨unique.set_none index, fun entry member => ?_⟩
          rcases mem_set_cases member with isNone | ⟨place, different, isPlace⟩
          · cases isNone
          · refine ⟨List.mem_of_getElem? isPlace, fun same => different ?_⟩
            exact unique place index entry old isPlace isOld ((Option.some.inj same).trans isStr.symm)

theorem strLenCacheAdd_spec (unique : Unique cache) (str : Address) (len rand : Nat) :
    Unique (strLenCacheAdd true cache str len rand) ∧
      ∀ entry, some entry ∈ strLenCacheAdd true cache str len rand →
        (entry.str = str ∧ entry.len = len) ∨ (entry.str ≠ str ∧ some entry ∈ cache) := by
  -- the slots of the first use are empty
  have ready : ∀ slots, slots = (if cache = [] then List.replicate 10 none else cache) →
      Unique slots ∧ ∀ entry, some entry ∈ slots → some entry ∈ cache := by
    rintro slots rfl
    split
    · refine ⟨fun i j first second isFirst => ?_, fun entry member => ?_⟩
      · have member := List.mem_of_getElem? isFirst
        simp at member
      · simp at member
    · exact ⟨unique, fun _ => id⟩
  unfold strLenCacheAdd
  rw [if_pos rfl]
  generalize isSlots : (if cache = [] then List.replicate 10 none else cache) = slots
  obtain ⟨uniqueSlots, inCache⟩ := ready slots isSlots.symm
  dsimp only
  cases found : strLenCacheFind slots str with
  | some index =>
      obtain ⟨old, isOld, isStr⟩ := strLenCacheFind_some found
      have others : ∀ {slot : Option CacheEntry} (entry : CacheEntry),
          some entry ∈ slots.set index slot →
            slot = some entry ∨ (entry.str ≠ str ∧ some entry ∈ cache) := fun entry member =>
        (mem_set_cases member).imp_right fun ⟨place, different, isPlace⟩ =>
          ⟨fun same => different
            (uniqueSlots place index entry old isPlace isOld (same.trans isStr.symm)),
            inCache entry (List.mem_of_getElem? isPlace)⟩
      dsimp only
      split
      · refine ⟨uniqueSlots.set_none index, fun entry member => ?_⟩
        exact (others entry member).elim (fun isNone => by cases isNone) .inr
      · refine ⟨uniqueSlots.set_some _ fun i other isOther same => ?_, fun entry member => ?_⟩
        · exact uniqueSlots i index other old isOther isOld (same.trans isStr.symm)
        · refine (others entry member).imp_left fun isNew => ?_
          obtain rfl := Option.some.inj isNew
          exact ⟨rfl, rfl⟩
  | none =>
      have absent := strLenCacheFind_none found
      dsimp only
      split
      · refine ⟨uniqueSlots.set_some _ fun i other isOther same => ?_, fun entry member => ?_⟩
        · exact absurd same (absent other (List.mem_of_getElem? isOther))
        · rcases mem_set_cases member with isNew | ⟨place, -, isPlace⟩
          · obtain rfl := Option.some.inj isNew
            exact .inl ⟨rfl, rfl⟩
          · have inSlots := List.mem_of_getElem? isPlace
            exact .inr ⟨absent entry inSlots, inCache entry inSlots⟩
      · exact ⟨uniqueSlots, fun entry member => .inr ⟨absent entry member, inCache entry member⟩⟩

end Cache

section Keeping

variable {s : StrState} {str : Address} {len : Nat}

theorem Sound.but (sound : Sound s) (str : Option Address) : FitsBut s str :=
  ⟨sound.unique, fun entry member _ => sound.fits entry member (by simp)⟩

/-- The length from a right cache is the length. -/
theorem strLenFromCache_eq (sound : Sound s) (str : Option Address) :
    strLenFromCache true s str = strLenFromCache false s str := by
  cases str with
  | none => rfl
  | some str =>
      unfold strLenFromCache
      rw [Option.bind_some]
      cases isText : s.heap str with
      | none => rfl
      | some text =>
          cases text with
          | nil => rfl
          | cons c rest =>
              dsimp only
              rw [if_pos rfl, if_neg Bool.false_ne_true, Option.bind_some]
              cases found : strLenCacheFind s.cache str with
              | none => rfl
              | some index =>
                  obtain ⟨entry, isEntry, rfl⟩ := strLenCacheFind_some found
                  have fits := sound.fits entry (List.mem_of_getElem? isEntry) (by simp) _ isText
                  rcases fits with empty | same
                  · cases empty
                  · rw [same]
                    simp [isEntry]

theorem FitsBut.change (fits : FitsBut s (some str)) {heap : Address → CPtr}
    (same : ∀ other, other ≠ str → heap other = s.heap other) :
    FitsBut ⟨heap, s.cache⟩ (some str) where
  unique := fits.unique
  fits entry member other := by
    have different : entry.str ≠ str := fun isStr => other (congrArg some isStr)
    intro text isText
    exact fits.fits entry member other text ((same entry.str different).symm.trans isText)

theorem FitsBut.write (fits : FitsBut s (some str)) (text : CString) :
    FitsBut (s.write str text) (some str) :=
  fits.change fun _ different => s.write_heap_of_ne different text

theorem FitsBut.del {str : Option Address} (fits : FitsBut s str) :
    FitsBut ⟨s.heap, strLenCacheDel s.cache str⟩ none := by
  obtain ⟨unique, entries⟩ := strLenCacheDel_spec fits.unique str
  exact ⟨unique, fun entry member _ => fits.fits entry (entries entry member).1
    (entries entry member).2⟩

theorem FitsBut.add (fits : FitsBut s (some str)) (len rand : Nat) :
    Ready ⟨s.heap, strLenCacheAdd true s.cache str len rand⟩ str len := by
  obtain ⟨unique, entries⟩ := strLenCacheAdd_spec fits.unique str len rand
  refine ⟨⟨unique, fun entry member other => ?_⟩, fun entry member same => ?_⟩
  · rcases entries entry member with ⟨same, -⟩ | ⟨-, inCache⟩
    · exact absurd (congrArg some same) other
    · exact fits.fits entry inCache other
  · rcases entries entry member with ⟨-, isLen⟩ | ⟨different, -⟩
    · exact isLen
    · exact absurd same different

theorem Ready.sound (ready : Ready s str len)
    (fitting : ∀ text, s.heap str = some text → text = [] ∨ text.length = len) : Sound s := by
  refine ⟨ready.others.unique, fun entry member _ => ?_⟩
  by_cases same : entry.str = str
  · intro text isText
    rw [ready.own entry member same]
    exact fitting text (same ▸ isText)
  · exact ready.others.fits entry member fun isStr => same (Option.some.inj isStr)

theorem Ready.write (ready : Ready s str len) {text : CString}
    (fitting : text = [] ∨ text.length = len) : Sound (s.write str text) := by
  have changed : Ready (s.write str text) str len := ⟨ready.others.write text, ready.own⟩
  refine changed.sound fun held isHeld => ?_
  rw [s.write_heap_self] at isHeld
  obtain rfl := Option.some.inj isHeld
  exact fitting

theorem relocate_other {heap : Address → CPtr} {dest : Option Address} {place other : Address}
    (notDest : some other ≠ dest) (notPlace : other ≠ place) :
    relocate heap dest place other = heap other := by
  cases dest with
  | none => exact Function.update_of_ne notPlace _ _
  | some old =>
      have notOld : other ≠ old := fun same => notDest (congrArg some same)
      rw [relocate, Function.update_of_ne notPlace, Function.update_of_ne notOld]

theorem FitsBut.relocate {dest : Option Address} (fits : FitsBut s dest) (place : Address) :
    FitsBut ⟨relocate s.heap dest place, strLenCacheDel s.cache dest⟩ (some place) := by
  obtain ⟨unique, entries⟩ := strLenCacheDel_spec fits.unique dest
  refine ⟨unique, fun entry member other text isText => ?_⟩
  obtain ⟨inCache, notDest⟩ := entries entry member
  have isHeld : s.heap entry.str = some text := by
    rw [← isText]
    exact (relocate_other notDest fun same => other (congrArg some same)).symm
  exact fits.fits entry inCache notDest text isHeld

end Keeping

/-- The heaps are the same, and the lengths in the first one's cache are right. -/
structure Alike (s t : StrState) : Prop where
  heap : s.heap = t.heap
  sound : Sound s

structure AlikeAt (place : Address) (len : Nat) (s t : StrState) : Prop where
  heap : s.heap = t.heap
  ready : Ready s place len

section Simulation

variable {s t : StrState}

theorem rel_bind {α β γ δ : Type} {first : α → β → Prop} {last : γ → δ → Prop} {x : Option α}
    {y : Option β} (related : Option.Rel first x y) {f : α → Option γ} {g : β → Option δ}
    (next : ∀ a b, first a b → Option.Rel last (f a) (g b)) :
    Option.Rel last (x.bind f) (y.bind g) := by
  cases related with
  | none => exact .none
  | some held => exact next _ _ held

theorem rel_cases {α β : Type} {first : α → β → Prop} {x : Option α} {y : Option β}
    (related : Option.Rel first x y) :
    (x = none ∧ y = none) ∨ ∃ a b, x = some a ∧ y = some b ∧ first a b := by
  cases related with
  | none => exact .inl ⟨rfl, rfl⟩
  | some held => exact .inr ⟨_, _, rfl, rfl, held⟩

def textOf (heap : Address → CPtr) (str : Option Address) : CString :=
  LibUseful.copyStr (str.bind heap)

theorem strLenFromCache_plain (s : StrState) (str : Option Address) :
    strLenFromCache false s str = (textOf s.heap str).length := by
  unfold strLenFromCache textOf
  cases str.bind s.heap with
  | none => rfl
  | some text => cases text <;> rfl

theorem Alike.length (alike : Alike s t) (str : Option Address) :
    strLenFromCache true s str = (textOf t.heap str).length := by
  rw [strLenFromCache_eq alike.sound, strLenFromCache_plain, alike.heap]

theorem read_alike (heap : s.heap = t.heap) (src : Source) : src.read s = src.read t := by
  cases src with
  | literal => rfl
  | pointer str => rw [Source.read, Source.read, heap]

theorem contents_alike (heap : s.heap = t.heap) (str : Address) : s.contents str = t.contents str := by
  rw [StrState.contents, StrState.contents, heap]

theorem setStrLen_alike (heap : s.heap = t.heap) {dest : Option Address} (fits : FitsBut s dest)
    (len : Nat) (choice : Choice) :
    Option.Rel (fun s' t' => AlikeAt choice.place len s' t' ∧
        t'.contents choice.place = textOf t.heap dest)
      (setStrLen true s dest len choice) (setStrLen false t dest len choice) := by
  unfold setStrLen
  rw [heap]
  split
  · refine .some ⟨⟨rfl, ?_⟩, ?_⟩
    · rw [← heap]
      exact (fits.relocate choice.place).add len choice.rand
    · cases dest <;> simp [StrState.contents, relocate, textOf, LibUseful.copyStr]
  · exact .none

theorem AlikeAt.write {place : Address} {len : Nat} (alike : AlikeAt place len s t)
    {text : CString} (fitting : text = [] ∨ text.length = len) :
    Alike (s.write place text) (t.write place text) :=
  ⟨by rw [StrState.write, StrState.write, alike.heap], alike.ready.write fitting⟩

theorem AlikeAt.alike {place : Address} {len : Nat} (alike : AlikeAt place len s t)
    (fitting : t.contents place = [] ∨ (t.contents place).length = len) : Alike s t := by
  refine ⟨alike.heap, alike.ready.sound fun text isText => ?_⟩
  rwa [StrState.contents, ← alike.heap, isText] at fitting

@[simp]
theorem splice_length (text bytes : CString) : splice text text.length bytes = text ++ bytes := by
  simp [splice]

theorem copyStrLen_alike (alike : Alike s t) (dest : Option Address) (src : Source) {len : Nat}
    (inside : len ≤ (LibUseful.copyStr (src.read t)).length) (choice : Choice) :
    Option.Rel Alike (copyStrLen true s dest src len choice)
      (copyStrLen false t dest src len choice) := by
  refine rel_bind (setStrLen_alike alike.heap (alike.sound.but dest) len choice) ?_
  rintro s' t' ⟨atPlace, -⟩
  rw [read_alike alike.heap]
  exact .some (atPlace.write (.inr (List.length_take_of_le inside)))

theorem catStrLen_alike (alike : Alike s t) (dest : Option Address) (src : Source) {len : Nat}
    (inside : len ≤ (LibUseful.copyStr (src.read t)).length) (choice : Choice) :
    Option.Rel Alike (catStrLen true s dest src len choice)
      (catStrLen false t dest src len choice) := by
  unfold catStrLen
  rw [alike.length, strLenFromCache_plain, read_alike alike.heap]
  refine rel_bind (setStrLen_alike alike.heap (alike.sound.but dest) _ choice) ?_
  rintro s' t' ⟨atPlace, held⟩
  rw [contents_alike atPlace.heap, held, splice_length]
  refine .some (atPlace.write (.inr ?_))
  rw [List.length_append, List.length_take_of_le inside]

theorem catStr_alike (alike : Alike s t) (dest : Option Address) (src : Source) (choice : Choice) :
    Option.Rel Alike (catStr true s dest src choice) (catStr false t dest src choice) := by
  unfold catStr
  rw [read_alike alike.heap]
  exact catStrLen_alike alike dest src (Nat.le_refl _) choice

/-- A text that is replaced by one that is empty or as long. -/
theorem Alike.rewrite (alike : Alike s t) {str : Address} {text : CString}
    (fitting : text = [] ∨ text.length = (t.contents str).length) :
    Alike (s.write str text) (t.write str text) := by
  refine ⟨by rw [StrState.write, StrState.write, alike.heap], ?_⟩
  have others := (alike.sound.but (some str)).write text
  refine ⟨others.unique, fun entry member _ => ?_⟩
  by_cases same : entry.str = str
  · intro held isHeld
    rw [same, s.write_heap_self] at isHeld
    obtain rfl := Option.some.inj isHeld
    rcases fitting with empty | isLength
    · exact .inl empty
    · rw [StrState.contents, ← alike.heap] at isLength
      cases isText : s.heap str with
      | none =>
          rw [isText] at isLength
          exact .inl (List.eq_nil_of_length_eq_zero isLength)
      | some before =>
          rw [isText] at isLength
          rcases alike.sound.fits entry member (by simp) before (same ▸ isText) with rfl | isLen
          · exact .inl (List.eq_nil_of_length_eq_zero isLength)
          · exact .inr (isLength.trans isLen)
  · exact others.fits entry member fun isStr => same (Option.some.inj isStr)

theorem clear_alike (alike : Alike s t) (dest : Option Address) :
    Option.Rel Alike (clear s dest) (clear t dest) := by
  cases dest with
  | none => exact .some alike
  | some str =>
      unfold clear
      rw [alike.heap]
      dsimp only
      split
      · exact .none
      · exact .some (alike.rewrite (.inl rfl))

theorem copyStr_alike (alike : Alike s t) (dest : Option Address) (src : Source) (choice : Choice) :
    Option.Rel Alike (copyStr true s dest src choice) (copyStr false t dest src choice) :=
  rel_bind (clear_alike alike dest) fun _ _ cleared => catStr_alike cleared dest src choice

/-- The text so far has the length that the loop counts. -/
theorem vCatLoop_alike (texts : List CString) (alike : Alike s t) (ptr : Address) {len : Nat}
    (counted : (t.contents ptr).length = len) (choices : List Choice) :
    Option.Rel Alike (vCatLoop true texts s ptr len choices)
      (vCatLoop false texts t ptr len choices) := by
  induction texts generalizing s t ptr len choices with
  | nil =>
      rw [vCatLoop, vCatLoop, contents_alike alike.heap, ← counted, splice_length, List.append_nil]
      exact .some (alike.rewrite (.inr rfl))
  | cons part rest inductionHypothesis =>
      cases part with
      | nil => exact inductionHypothesis alike ptr counted choices
      | cons c others =>
          cases choices with
          | nil => exact .none
          | cons choice later =>
              refine rel_bind (setStrLen_alike alike.heap (alike.sound.but (some ptr)) _ choice) ?_
              rintro s' t' ⟨atPlace, held⟩
              have isText : t'.contents choice.place = t.contents ptr := held
              subst counted
              rw [contents_alike atPlace.heap, isText, splice_length]
              have length : (t.contents ptr ++ c :: others).length =
                  (t.contents ptr).length + (c :: others).length := List.length_append
              refine inductionHypothesis (atPlace.write (.inr ?_)) choice.place ?_ later
              · exact length
              · rw [StrState.contents, t'.write_heap_self]
                exact length

theorem arguments_alike (heap : s.heap = t.heap) (parts : List Source) :
    arguments s parts = arguments t parts := by
  induction parts with
  | nil => rfl
  | cons part rest inductionHypothesis =>
      rw [arguments, arguments, read_alike heap, inductionHypothesis]

theorem vCatStr_alike (alike : Alike s t) (dest : Option Address) (parts : List Source)
    (choices : List Choice) :
    Option.Rel Alike (vCatStr true s dest parts choices) (vCatStr false t dest parts choices) := by
  unfold vCatStr
  rw [arguments_alike alike.heap]
  cases dest with
  | some ptr =>
      dsimp only
      rw [alike.length, strLenFromCache_plain, alike.heap]
      split
      · exact .none
      · split
        · exact .some alike
        · exact vCatLoop_alike _ alike ptr rfl choices
  | none =>
      cases choices with
      | nil => exact .none
      | cons choice later =>
          have measured : ∀ part : Source,
              part.lenFromCache true s = part.lenFromCache false t := fun part => by
            cases part with
            | literal => rfl
            | pointer str => exact (alike.length str).trans (strLenFromCache_plain t str).symm
          have first : (parts.head?.map (Source.lenFromCache true s)).getD 0 =
              (parts.head?.map (Source.lenFromCache false t)).getD 0 := by
            cases parts with
            | nil => rfl
            | cons part rest => exact measured part
          dsimp only
          rw [first]
          refine rel_bind (setStrLen_alike alike.heap (alike.sound.but none) _ choice) ?_
          rintro s' t' ⟨atPlace, held⟩
          have empty : t'.contents choice.place = [] := held
          exact vCatLoop_alike _ (atPlace.alike (.inl empty)) choice.place (by rw [empty]; rfl) later

theorem mCopyStr_alike (alike : Alike s t) (dest : Option Address) (parts : List Source)
    (choices : List Choice) :
    Option.Rel Alike (mCopyStr true s dest parts choices) (mCopyStr false t dest parts choices) :=
  rel_bind (clear_alike alike dest) fun _ _ cleared => vCatStr_alike cleared dest parts choices

theorem rel_map {α β γ : Type} {last : β → γ → Prop} {x : Option α} {f : α → β} {g : α → γ}
    (related : ∀ a, x = some a → last (f a) (g a)) : Option.Rel last (x.map f) (x.map g) := by
  cases x with
  | none => exact .none
  | some a => exact .some (related a rfl)

theorem Alike.rewrite_add (alike : Alike s t) (str : Address) (text : CString) (rand : Nat) :
    Alike ⟨(s.write str text).heap, strLenCacheAdd true s.cache str text.length rand⟩
      ⟨(t.write str text).heap, strLenCacheAdd false t.cache str text.length rand⟩ := by
  refine ⟨by rw [StrState.write, StrState.write, alike.heap], ?_⟩
  refine (((alike.sound.but (some str)).write text).add text.length rand).sound fun held isHeld => ?_
  rw [s.write_heap_self] at isHeld
  exact .inr (congrArg List.length (Option.some.inj isHeld).symm)

theorem Alike.change_del (alike : Alike s t) (str : Address) (text : CPtr) :
    Alike ⟨Function.update s.heap str text, strLenCacheDel s.cache (some str)⟩
      ⟨Function.update t.heap str text, strLenCacheDel t.cache (some str)⟩ := by
  refine ⟨by rw [alike.heap], ?_⟩
  exact ((alike.sound.but (some str)).change fun _ different =>
    Function.update_of_ne different _ _).del

theorem strTrunc_alike (alike : Alike s t) (str : Address) (len rand : Nat) :
    Option.Rel Alike (strTrunc true s str len rand) (strTrunc false t str len rand) := by
  unfold strTrunc
  rw [alike.heap]
  refine rel_map fun text _ => ?_
  split
  · rename_i longer
    have shortened := alike.rewrite_add str (text.take len) rand
    rwa [List.length_take_of_le longer.le] at shortened
  · exact alike

theorem stripTrailing_alike (alike : Alike s t) (strips : Char → Bool) (str : Address) :
    Option.Rel Alike (stripTrailing true s strips str) (stripTrailing false t strips str) := by
  unfold stripTrailing
  rw [alike.heap, alike.length, strLenFromCache_plain]
  refine rel_map fun text _ => ?_
  dsimp only
  split
  · exact alike.change_del str _
  · exact alike

theorem stripLeadingWhitespace_alike (alike : Alike s t) (str : Address) (rand : Nat) :
    Option.Rel Alike (stripLeadingWhitespace true s str rand)
      (stripLeadingWhitespace false t str rand) := by
  unfold stripLeadingWhitespace
  rw [alike.heap]
  exact rel_map fun text _ => alike.rewrite_add str _ rand

theorem strrep_alike (alike : Alike s t) (str : Address) (oldchar : Char) (newchar : Option Char) :
    Option.Rel Alike (strrep s str oldchar newchar) (strrep t str oldchar newchar) := by
  unfold strrep
  rw [alike.heap]
  refine rel_map fun text isText => ?_
  cases newchar with
  | none => exact alike.change_del str _
  | some new =>
      refine alike.rewrite (.inr ?_)
      rw [List.length_map, StrState.contents, isText]
      rfl

theorem destroy_alike (alike : Alike s t) (str : Address) :
    Option.Rel Alike (destroy s str) (destroy t str) := by
  unfold destroy
  rw [alike.heap]
  refine rel_map fun text _ => ?_
  have gone := alike.change_del str none
  rwa [alike.heap] at gone

structure Written (place : Address) (text : CString) (s t : StrState) : Prop where
  heap : s.heap = t.heap
  others : FitsBut s (some place)
  text : t.heap place = some text

theorem Written.add {place : Address} {text : CString} (written : Written place text s t)
    (rand : Nat) :
    Alike { s with cache := strLenCacheAdd true s.cache place text.length rand }
      { t with cache := strLenCacheAdd false t.cache place text.length rand } := by
  refine ⟨written.heap, (written.others.add text.length rand).sound fun held isHeld => ?_⟩
  have isText : some held = some text := by
    rw [← isHeld, ← written.text]
    exact congrFun written.heap place
  exact .inr (congrArg List.length (Option.some.inj isText))

theorem AlikeAt.print {place : Address} {len room : Nat} (alike : AlikeAt place len s t)
    {text : CString} (fitting : text.length ≤ room) :
    Written place text (printInto s place room text) (printInto t place room text) := by
  rw [printInto, printInto, List.take_of_length_le fitting]
  refine ⟨?_, alike.ready.others.write text, t.write_heap_self place text⟩
  rw [StrState.write, StrState.write, alike.heap]

theorem AlikeAt.print_but {place : Address} {len : Nat} (alike : AlikeAt place len s t) (room : Nat)
    (text : CString) :
    (printInto s place room text).heap = (printInto t place room text).heap ∧
      FitsBut (printInto s place room text) (some place) :=
  ⟨by rw [printInto, printInto, StrState.write, StrState.write, alike.heap],
    alike.ready.others.write _⟩

theorem formatStr_alike (alike : Alike s t) (dest : Option Address) (format text : CString)
    (forFormat first second : Choice) :
    Option.Rel Alike (formatStr true s dest format text forFormat first second)
      (formatStr false t dest format text forFormat first second) := by
  refine rel_bind (copyStr_alike alike none (.literal format) forFormat) fun s t alike => ?_
  refine rel_bind (setStrLen_alike alike.heap (alike.sound.but dest) _ first) ?_
  rintro s t ⟨atFirst, -⟩
  dsimp only
  split
  · obtain ⟨heap, others⟩ := atFirst.print_but (4 * format.length) text
    refine rel_bind (setStrLen_alike heap others _ second) ?_
    rintro s t ⟨atSecond, -⟩
    exact destroy_alike ((atSecond.print (Nat.le_refl _)).add second.rand) forFormat.place
  · rename_i short
    exact destroy_alike ((atFirst.print (Nat.le_of_not_lt short)).add second.rand) forFormat.place

theorem Sound.move (sound : Sound s) (ptr place : Address) :
    FitsBut ⟨relocate s.heap (some ptr) place, s.cache⟩ (some place) := by
  refine ⟨sound.unique, fun entry member other text isText => ?_⟩
  change relocate s.heap (some ptr) place entry.str = some text at isText
  have notPlace : entry.str ≠ place := fun same => other (congrArg some same)
  by_cases isPtr : entry.str = ptr
  · rw [relocate, Function.update_of_ne notPlace, isPtr, Function.update_self] at isText
    cases isText
  · rw [relocate_other (fun same => isPtr (Option.some.inj same)) notPlace] at isText
    exact sound.fits entry member (by simp) text isText

/-- Each round leaves the string with its length, whatever the cache knew of
the place it moved to. -/
theorem transferLoop_alike (chunks : List CString) (alike : Alike s t) (ptr : Address)
    {read : CString} (noNul : '\x00' ∉ read) (noNuls : ∀ chunk ∈ chunks, '\x00' ∉ chunk)
    (choices : List Choice) :
    Option.Rel Alike (transferLoop true chunks s ptr read choices)
      (transferLoop false chunks t ptr read choices) := by
  induction chunks generalizing s t ptr read choices with
  | nil => exact .some alike
  | cons chunk rest inductionHypothesis =>
      cases choices with
      | nil => exact .none
      | cons choice later =>
          rw [transferLoop, transferLoop, alike.heap]
          split
          · have clean : '\x00' ∉ read ++ chunk := fun member =>
              (List.mem_append.mp member).elim noNul (noNuls chunk List.mem_cons_self)
            refine inductionHypothesis ?_ choice.place clean
              (fun other member => noNuls other (List.mem_cons_of_mem _ member)) later
            have whole : (read ++ chunk).takeWhile (· ≠ '\x00') = read ++ chunk :=
              List.takeWhile_eq_self_iff.mpr fun c member => by
                rw [decide_eq_true_eq]
                rintro rfl
                exact clean member
            rw [whole]
            have moved := (alike.sound.move ptr choice.place).write (read ++ chunk)
            rw [alike.heap] at moved
            exact Written.add (s := ⟨_, s.cache⟩) (t := ⟨_, t.cache⟩)
              ⟨rfl, moved, Function.update_self _ _ _⟩ choice.rand
          · exact .none

end Simulation

/-! ## Runs -/

/-- A call of the program. -/
inductive StrCall where
  | copyStr (dest : Option Address) (src : Source) (choice : Choice)
  | catStr (dest : Option Address) (src : Source) (choice : Choice)
  | copyStrLen (dest : Option Address) (src : Source) (len : Nat) (choice : Choice)
  | catStrLen (dest : Option Address) (src : Source) (len : Nat) (choice : Choice)
  | mCopyStr (dest : Option Address) (parts : List Source) (choices : List Choice)
  | mCatStr (dest : Option Address) (parts : List Source) (choices : List Choice)
  | strTrunc (str : Address) (len rand : Nat)
  | stripTrailingWhitespace (str : Address)
  | stripCRLF (str : Address)
  | stripLeadingWhitespace (str : Address) (rand : Nat)
  | strrep (str : Address) (oldchar : Char) (newchar : Option Char)
  | formatStr (dest : Option Address) (format text : CString) (forFormat first second : Choice)
  | streamReadToTerminator (dest : Option Address) (chunks : List CString) (choice : Choice)
      (choices : List Choice)
  | destroy (str : Address)
  | strLenFromCache (str : Option Address)

def isCRLF (c : Char) : Bool := c = '\n' || c = '\r'

namespace StrCall

/-- The state after the call, if it is one to make. -/
def run (enabled : Bool) (s : StrState) : StrCall → Option StrState
  | copyStr dest src choice => Cached.copyStr enabled s dest src choice
  | catStr dest src choice => Cached.catStr enabled s dest src choice
  | copyStrLen dest src len choice => Cached.copyStrLen enabled s dest src len choice
  | catStrLen dest src len choice => Cached.catStrLen enabled s dest src len choice
  | mCopyStr dest parts choices => Cached.mCopyStr enabled s dest parts choices
  | mCatStr dest parts choices => vCatStr enabled s dest parts choices
  | strTrunc str len rand => Cached.strTrunc enabled s str len rand
  | stripTrailingWhitespace str => stripTrailing enabled s isSpace str
  | stripCRLF str => stripTrailing enabled s isCRLF str
  | stripLeadingWhitespace str rand => Cached.stripLeadingWhitespace enabled s str rand
  | strrep str oldchar newchar => Cached.strrep s str oldchar newchar
  | formatStr dest format text forFormat first second =>
      Cached.formatStr enabled s dest format text forFormat first second
  | streamReadToTerminator dest chunks choice choices =>
      Cached.streamReadToTerminator enabled s dest chunks choice choices
  | destroy str => Cached.destroy s str
  | strLenFromCache _ => some s

def told (enabled : Bool) (s : StrState) : StrCall → Option Nat
  | strLenFromCache str => some (Cached.strLenFromCache enabled s str)
  | _ => none

/-- `CopyStrLen` and `CatStrLen` take no more than there is, and what is read
has no NUL. -/
def InBounds (s : StrState) : StrCall → Prop
  | copyStrLen _ src len _ => len ≤ (LibUseful.copyStr (src.read s)).length
  | catStrLen _ src len _ => len ≤ (LibUseful.copyStr (src.read s)).length
  | streamReadToTerminator _ chunks _ _ => ∀ chunk ∈ chunks, '\x00' ∉ chunk
  | _ => True

end StrCall

/-- The state after some calls, and the lengths that the program was told. -/
def runCalls (enabled : Bool) : List StrCall → StrState → Option (StrState × List (Option Nat))
  | [], s => some (s, [])
  | call :: rest, s => do
      let after ← call.run enabled s
      let (final, told) ← runCalls enabled rest after
      pure (final, call.told enabled s :: told)

/-- Every call of a run without the cache is in bounds. -/
def AllInBounds : List StrCall → StrState → Prop
  | [], _ => True
  | call :: rest, s => call.InBounds s ∧ ∀ after, call.run false s = some after → AllInBounds rest after

section Runs

variable {s t : StrState}

theorem run_alike (alike : Alike s t) (call : StrCall) (inBounds : call.InBounds t) :
    Option.Rel Alike (call.run true s) (call.run false t) := by
  cases call with
  | copyStr dest src choice => exact copyStr_alike alike dest src choice
  | catStr dest src choice => exact catStr_alike alike dest src choice
  | copyStrLen dest src len choice => exact copyStrLen_alike alike dest src inBounds choice
  | catStrLen dest src len choice => exact catStrLen_alike alike dest src inBounds choice
  | mCopyStr dest parts choices => exact mCopyStr_alike alike dest parts choices
  | mCatStr dest parts choices => exact vCatStr_alike alike dest parts choices
  | strTrunc str len rand => exact strTrunc_alike alike str len rand
  | stripTrailingWhitespace str => exact stripTrailing_alike alike isSpace str
  | stripCRLF str => exact stripTrailing_alike alike isCRLF str
  | stripLeadingWhitespace str rand => exact stripLeadingWhitespace_alike alike str rand
  | strrep str oldchar newchar => exact strrep_alike alike str oldchar newchar
  | formatStr dest format text forFormat first second =>
      exact formatStr_alike alike dest format text forFormat first second
  | streamReadToTerminator dest chunks choice choices =>
      exact rel_bind (copyStr_alike alike dest _ choice) fun _ _ emptied =>
        transferLoop_alike chunks emptied _ (by simp) inBounds choices
  | destroy str => exact destroy_alike alike str
  | strLenFromCache str => exact .some alike

theorem told_alike (alike : Alike s t) (call : StrCall) : call.told true s = call.told false t := by
  cases call with
  | strLenFromCache str =>
      exact congrArg some ((alike.length str).trans (strLenFromCache_plain t str).symm)
  | _ => rfl

theorem runCalls_alike (calls : List StrCall) (alike : Alike s t) (inBounds : AllInBounds calls t) :
    Option.Rel (fun (p q : StrState × List (Option Nat)) => Alike p.1 q.1 ∧ p.2 = q.2)
      (runCalls true calls s) (runCalls false calls t) := by
  induction calls generalizing s t with
  | nil => exact .some ⟨alike, rfl⟩
  | cons call rest inductionHypothesis =>
      rw [runCalls, runCalls]
      rcases rel_cases (run_alike alike call inBounds.1) with ⟨isNone, isNoneToo⟩ |
        ⟨after, other, isAfter, isOther, alikeAfter⟩
      · rw [isNone, isNoneToo]
        exact .none
      · rw [isAfter, isOther]
        refine rel_bind (inductionHypothesis alikeAfter (inBounds.2 other isOther)) ?_
        rintro ⟨final, told⟩ ⟨otherFinal, toldToo⟩ ⟨alikeFinal, same⟩
        dsimp only at same
        exact .some ⟨alikeFinal, by rw [told_alike alike, same]⟩

end Runs

def emptyState : StrState := ⟨fun _ => none, []⟩

theorem alike_emptyState : Alike emptyState emptyState := by
  refine ⟨rfl, fun i j first second isFirst => ?_, fun entry member => ?_⟩
  · cases isFirst
  · cases member

/-- With the cache or without, the same calls leave the same texts and tell the
program the same lengths, wherever `realloc` puts the strings and whichever
entries `rand` evicts. -/
theorem cache_transparent (calls : List StrCall) (inBounds : AllInBounds calls emptyState) :
    (runCalls true calls emptyState).map (fun run => (run.1.heap, run.2)) =
      (runCalls false calls emptyState).map (fun run => (run.1.heap, run.2)) := by
  rcases rel_cases (runCalls_alike calls alike_emptyState inBounds) with ⟨isNone, isNoneToo⟩ |
    ⟨run, other, isRun, isOther, alike, told⟩
  · rw [isNone, isNoneToo]
  · rw [isRun, isOther]
    exact congrArg some (Prod.ext alike.heap told)

/-- A long text is made, cut and continued. -/
def longCalls : List StrCall :=
  [.copyStr none (.literal (List.replicate 150 'a')) ⟨1, 0⟩,
    .strTrunc 1 120 0,
    .catStrLen (some 1) (.literal "bcd".toList) 2 ⟨2, 0⟩,
    .strLenFromCache (some 2)]

theorem cache_transparent_longCalls :
    (runCalls true longCalls emptyState).map (fun run => run.2) = some [none, none, none, some 122] := by
  have same := cache_transparent longCalls
    ⟨trivial, fun _ _ => ⟨trivial, fun _ _ => ⟨show 2 ≤ 3 by decide, fun _ _ => ⟨trivial, fun _ _ => trivial⟩⟩⟩⟩
  have told := congrArg (Option.map Prod.snd) same
  rw [Option.map_map, Option.map_map] at told
  refine told.trans ?_
  decide +kernel

end VpnMgr.LibUseful.Cached
