import VpnMgr.Text.CString

/-!
# String helpers of the bundled libUseful

The functions of `String.c` and `GeneralFunctions.c` that the tool relies on.
The length cache of `StrLenCache.c` only remembers lengths and is transparent
here.
-/

namespace VpnMgr.LibUseful

open VpnMgr.Text CString

/-- `StrValid`: neither NULL nor empty. -/
def strValid : CPtr → Bool
  | some (_ :: _) => true
  | _ => false

@[simp]
theorem strValid_none : strValid none = false := rfl

@[simp]
theorem strValid_nil : strValid (some []) = false := rfl

@[simp]
theorem strValid_cons (c : Char) (rest : CString) : strValid (some (c :: rest)) = true := rfl

theorem strValid_some_iff (s : CString) : strValid (some s) = true ↔ s ≠ [] := by
  cases s <;> simp

theorem strValid_iff (p : CPtr) : strValid p = true ↔ ∃ s, p = some s ∧ s ≠ [] := by
  cases p with
  | none => simp
  | some s => simp [strValid_some_iff]

/-- `CopyStr(Dest, Src)`: a NULL source leaves the empty string. -/
def copyStr (src : CPtr) : CString := src.getD []

@[simp]
theorem copyStr_some (s : CString) : copyStr (some s) = s := rfl

/-- `MCopyStr`: the argument list ends at its first NULL. -/
def mCopyStr : List CPtr → CString
  | some s :: rest => s ++ mCopyStr rest
  | _ => []

@[simp]
theorem mCopyStr_nil : mCopyStr [] = [] := rfl

@[simp]
theorem mCopyStr_some (s : CString) (rest : List CPtr) :
    mCopyStr (some s :: rest) = s ++ mCopyStr rest := rfl

@[simp]
theorem mCopyStr_none (rest : List CPtr) : mCopyStr (none :: rest) = [] := rfl

/-- `MCatStr`. -/
def mCatStr (dest : CString) (parts : List CPtr) : CString := dest ++ mCopyStr parts

/-- `CommaList`. -/
def commaList (list add : CPtr) : CString :=
  if strValid list then mCatStr (copyStr list) [some ", ".toList, add] else copyStr add

/-- `CompareStrNoCase(S1, S2) == 0`. -/
def equalStrNoCase (a b : CPtr) : Bool :=
  if !strValid a && !strValid b then true
  else if !strValid a || !strValid b then false
  else sameNoCase (copyStr a) (copyStr b)

/-- `StripTrailingWhitespace`. -/
def stripTrailingWhitespace (s : CString) : CString := dropTrailingSpace s

theorem stripTrailingWhitespace_append (a b : CString) :
    stripTrailingWhitespace (a ++ b) =
      if stripTrailingWhitespace b = [] then stripTrailingWhitespace a
      else a ++ stripTrailingWhitespace b := dropTrailingSpace_append a b

theorem stripTrailingWhitespace_blank {text blank : CString}
    (isBlank : ∀ c ∈ blank, isSpace c = true) (ends : text ≠ [])
    (solid : isSpace (text.getLast ends) = false) :
    stripTrailingWhitespace (text ++ blank) = text := by
  have nothing : stripTrailingWhitespace blank = [] := List.rdropWhile_eq_nil_iff.mpr isBlank
  rw [stripTrailingWhitespace_append, if_pos nothing]
  exact List.rdropWhile_eq_self_iff.mpr fun nonempty => by simpa using solid

/-- `StripLeadingWhitespace`. -/
def stripLeadingWhitespace (s : CString) : CString := skipSpace s

/-- The character that closes a string opened by `c`, for `StripQuotes`. -/
def closingQuote (c : Char) : Option Char :=
  if c = '\'' || c = '"' then some c else none

/-- `StripStartEndChars(Str, "'\"", "'\"")`, which `StripQuotes` calls.  Leading
blanks are dropped only together with a pair of quotes. -/
def stripQuotes (s : CString) : CString :=
  let str := stripTrailingWhitespace s
  match skipSpace str with
  | [] => str
  | c :: rest =>
      if closingQuote c = (c :: rest).getLast? then rest.dropLast else str

theorem stripQuotes_of_clean {s : CString} (clean : Clean s) : stripQuotes s = s := by
  have unquoted : ∀ c ∈ s, closingQuote c = none := by
    intro c membership
    have plain := (isPlain_iff c).mp (clean c membership)
    simp [closingQuote, plain]
  simp only [stripQuotes, stripTrailingWhitespace, clean.dropTrailingSpace, clean.skipSpace]
  cases s with
  | nil => rfl
  | cons c rest => simp [unquoted c (by simp), List.getLast?_cons]

/-- `UnicodeEncodeChar` at level 0, the only level the tool ever uses, after
the look-alike replacements of `BufferAddUnicodeChar`. -/
def bufferAddUnicodeChar (code : Nat) : Char :=
  if code = 0x00a0 then ' '
  else if 0x2010 ≤ code && code ≤ 0x2015 then '-'
  else if code = 0x2018 || code = 0x2019 then '\''
  else if code = 0x201a then ','
  else if code = 0x201b then '`'
  else if 0x201c ≤ code && code ≤ 0x201e then '"'
  else if code = 0x2024 then '.'
  else if code = 0x2039 then '<'
  else if code = 0x203A then '>'
  else if code = 0x2044 then '/'
  else if code = 0x204e || code = 0x2055 then '*'
  else if code < 127 then Char.ofNat code
  else '?'

/-- The value of a hexadecimal digit. -/
def hexDigit (c : Char) : Option Nat :=
  if c.isDigit then some (c.toNat - '0'.toNat)
  else if 'a' ≤ c.toLower && c.toLower ≤ 'f' then some (c.toLower.toNat - 'a'.toNat + 10)
  else none

def hexDigits (value : Nat) : CString → Nat
  | [] => value
  | c :: rest =>
      match hexDigit c with
      | some digit => hexDigits (16 * value + digit) rest
      | none => value

/-- `strtol(s, NULL, 16)`. -/
def strtolHex (s : CString) : Int :=
  let unsigned : CString → Nat
    | '0' :: x :: d :: rest =>
        if x.toLower = 'x' && (hexDigit d).isSome then hexDigits 0 (d :: rest)
        else hexDigits 0 ('0' :: x :: d :: rest)
    | rest => hexDigits 0 rest
  match skipSpace s with
  | '-' :: rest => -(unsigned rest : Int)
  | '+' :: rest => unsigned rest
  | rest => unsigned rest

/-- The output buffer of `UnQuoteStr`: what is visible as a C string, and
whether a NUL has been written, after which appended bytes stay hidden. -/
structure UnQuoteBuffer where
  text : CString := []
  ended : Bool := false

/-- `AddCharToBuffer(RetStr, olen, c)`. -/
def UnQuoteBuffer.add (buffer : UnQuoteBuffer) (c : Char) : UnQuoteBuffer :=
  if buffer.ended then buffer
  else if c = '\x00' then { buffer with ended := true }
  else { buffer with text := buffer.text ++ [c] }

/-- `StrAddUnicodeChar` appends at the visible end, even behind a written NUL. -/
def UnQuoteBuffer.addUnicode (buffer : UnQuoteBuffer) (code : Nat) : UnQuoteBuffer :=
  let c := bufferAddUnicodeChar code
  if c = '\x00' then { buffer with ended := true }
  else { buffer with text := buffer.text ++ [c] }

/-- The main loop of `UnQuoteStr`.  A backslash at the very end of the text
makes the C code step over the terminating NUL; the model stops there. -/
def unQuoteLoop : Nat → CString → UnQuoteBuffer → UnQuoteBuffer
  | 0, _, buffer => buffer
  | _ + 1, [], buffer => buffer
  | fuel + 1, '\\' :: c :: rest, buffer =>
      if c = 'e' then unQuoteLoop fuel rest (buffer.add '\x1b')
      else if c = 'n' then unQuoteLoop fuel rest (buffer.add '\n')
      else if c = 'r' then unQuoteLoop fuel rest (buffer.add '\r')
      else if c = 't' then unQuoteLoop fuel rest (buffer.add '\t')
      else if c = 'x' then
        unQuoteLoop fuel (rest.drop 2)
          (buffer.add (Char.ofNat ((strtolHex (rest.take 2)) % 256).toNat))
      else if c = 'u' then
        unQuoteLoop fuel (rest.drop 4) (buffer.addUnicode (strtolHex (rest.take 4)).toNat)
      else unQuoteLoop fuel rest (buffer.add c)
  | _ + 1, ['\\'], buffer => buffer
  | fuel + 1, c :: rest, buffer => unQuoteLoop fuel rest (buffer.add c)

/-- `UnQuoteStr`. -/
def unQuoteStr (s : CString) : CString := (unQuoteLoop (s.length + 1) s {}).text

end VpnMgr.LibUseful
