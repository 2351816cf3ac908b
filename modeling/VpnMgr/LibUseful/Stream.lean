import VpnMgr.Text.CString

/-!
# Reading a stream line by line

`STREAMReadLine` returns the text up to and including the next newline, and
NULL once nothing is left.
-/

namespace VpnMgr.LibUseful

open VpnMgr.Text CString

/-- The lines `STREAMReadLine` returns until it returns NULL. -/
def streamReadLines : CString → List CString
  | [] => []
  | c :: rest =>
      if c = '\n' then ['\n'] :: streamReadLines rest
      else match streamReadLines rest with
        | [] => [[c]]
        | line :: lines => (c :: line) :: lines

theorem streamReadLines_newline (line rest : CString) (noNewline : '\n' ∉ line) :
    streamReadLines (line ++ '\n' :: rest) = (line ++ ['\n']) :: streamReadLines rest := by
  induction line with
  | nil => simp [streamReadLines]
  | cons c line inductionHypothesis =>
      simp only [List.mem_cons, not_or] at noNewline
      simp [streamReadLines, Ne.symm noNewline.1, inductionHypothesis noNewline.2]

theorem streamReadLines_last (line : CString) (nonempty : line ≠ []) (noNewline : '\n' ∉ line) :
    streamReadLines line = [line] := by
  induction line with
  | nil => exact absurd rfl nonempty
  | cons c line inductionHypothesis =>
      simp only [List.mem_cons, not_or] at noNewline
      by_cases single : line = []
      · simp [streamReadLines, single, Ne.symm noNewline.1]
      · simp [streamReadLines, Ne.symm noNewline.1, inductionHypothesis single noNewline.2]

/-- Going through lines that are read, for one who does not mind newlines and
empty lines. -/
theorem foldl_streamReadLines {σ : Type} {step : σ → CString → σ}
    (newline : ∀ state line, step state (line ++ ['\n']) = step state line)
    (empty : ∀ state, step state [] = state) {lines : List CString}
    (oneLine : ∀ line ∈ lines, '\n' ∉ line) (state : σ) :
    (streamReadLines (['\n'].intercalate lines)).foldl step state = lines.foldl step state := by
  induction lines generalizing state with
  | nil => rfl
  | cons line rest inductionHypothesis =>
      have later := inductionHypothesis fun other member => oneLine other (by simp [member])
      have here := oneLine line (by simp)
      cases rest with
      | nil =>
          rw [List.intercalate_singleton]
          by_cases nothing : line = []
          · rw [nothing]
            exact (empty state).symm
          · rw [streamReadLines_last line nothing here]
      | cons next rest =>
          have whole : ['\n'].intercalate (line :: next :: rest) =
              line ++ '\n' :: ['\n'].intercalate (next :: rest) := by
            simp [List.intercalate_cons_cons]
          rw [whole, streamReadLines_newline _ _ here, List.foldl_cons, newline]
          exact later _

/-- What `STREAMReadBytes` reports. -/
inductive ReadResult where
  | bytes (first : UInt8) (rest : List UInt8)
  /-- `STREAM_TIMEOUT`; also a TLS record without application data -/
  | timeout
  /-- `STREAM_CLOSED` -/
  | closed
  /-- `STREAM_NODATA` -/
  | noData
  deriving DecidableEq

namespace ReadResult

def buffer : ReadResult → List UInt8
  | bytes first rest => first :: rest
  | _ => []

def isIdle : ReadResult → Bool
  | timeout | noData => true
  | _ => false

theorem buffer_eq_nil_iff (result : ReadResult) :
    result.buffer = [] ↔ result.isIdle = true ∨ result = closed := by
  cases result <;> simp [buffer, isIdle]

end ReadResult

end VpnMgr.LibUseful
