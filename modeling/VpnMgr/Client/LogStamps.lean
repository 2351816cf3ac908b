import Mathlib.Data.List.Forall2
import VpnMgr.Client.OpenVpnLog

/-!
# The time stamps of openvpn's log

What is left of a message behind each of the two stamps that
`OpenVpnReadLineSkipDateTime` knows.
-/

namespace VpnMgr.Client

open Machine Text CString LibUseful Command Process

def isStampChar (c : Char) : Bool := c.isAlphanum || c = ':' || c = '-'

structure StampWord where
  text : CString
  nonempty : text ≠ []
  chars : ∀ c ∈ text, isStampChar c = true

/-- `<Day> <Mon> <dd> <HH:MM:SS> <YYYY>`. -/
structure DayStamp where
  day : StampWord
  month : StampWord
  date : StampWord
  time : StampWord
  year : StampWord
  threeLetters : day.text.length = 3

/-- `<YYYY-mm-dd> <HH:MM:SS>`. -/
structure DateStamp where
  date : StampWord
  time : StampWord
  tenLetters : date.text.length = 10

def DayStamp.line (stamp : DayStamp) (message : CString) : CString :=
  stamp.day.text ++ ' ' :: (stamp.month.text ++ ' ' :: (stamp.date.text ++ ' ' ::
    (stamp.time.text ++ ' ' :: (stamp.year.text ++ ' ' :: (message ++ ['\n'])))))

def DateStamp.line (stamp : DateStamp) (message : CString) : CString :=
  stamp.date.text ++ ' ' :: (stamp.time.text ++ ' ' :: (message ++ ['\n']))

/-- The message that `OpenVpnProcess` makes out of a line. -/
def messageOf (line : CString) : CString :=
  copyStr (openVpnReadLineSkipDateTime (stripTrailingWhitespace line))

theorem isWordChar_of_isStampChar {c : Char} (stamp : isStampChar c = true) :
    isWordChar c = true := by
  refine (isWordChar_iff c).mpr ⟨?_, ?_⟩
  · by_contra space
    simp only [isSpace, Bool.or_eq_false_iff, decide_eq_false_iff_not, not_and_or, not_not] at space
    rcases space with ((((rfl | rfl) | rfl) | rfl) | rfl) | rfl <;> exact absurd stamp (by decide)
  · rintro rfl
    exact absurd stamp (by decide)

section Word

variable (word : StampWord)

theorem StampWord.wordChars : ∀ c ∈ word.text, isWordChar c = true :=
  fun c member => isWordChar_of_isStampChar (word.chars c member)

theorem nextWord_blank (rest : CString) :
    nextWord (some (word.text ++ ' ' :: rest)) = ⟨some (skipSpace rest), word.text⟩ :=
  getToken_word_blank rest word.wordChars

theorem nextWord_last : nextWord (some word.text) = ⟨some [], word.text⟩ :=
  getToken_solid_last word.nonempty fun c inside =>
    ((isWordChar_iff c).mp (word.wordChars c inside)).1

theorem skipSpace_word (rest : CString) : skipSpace (word.text ++ rest) = word.text ++ rest := by
  have chars := word.wordChars
  rcases text : word.text with _ | ⟨c, tail⟩
  · exact absurd text word.nonempty
  · have solid := ((isWordChar_iff c).mp (chars c (by simp [text]))).1
    simp [skipSpace, solid]

theorem stripTrailingWhitespace_word : stripTrailingWhitespace word.text = word.text := by
  have solid : isSpace (word.text.getLast word.nonempty) = false :=
    ((isWordChar_iff _).mp (word.wordChars _ (List.getLast_mem word.nonempty))).1
  rw [← List.dropLast_append_getLast word.nonempty]
  exact dropTrailingSpace_concat solid

def trimmedEnd (message : CString) : CString :=
  if stripTrailingWhitespace message = [] then word.text
  else word.text ++ ' ' :: stripTrailingWhitespace message

theorem stripTrailingWhitespace_end (message : CString) :
    stripTrailingWhitespace (word.text ++ ' ' :: (message ++ ['\n'])) =
      trimmedEnd word message := by
  have newline : stripTrailingWhitespace (message ++ ['\n']) = stripTrailingWhitespace message :=
    stripTrailingWhitespace_append message ['\n']
  have behind : stripTrailingWhitespace (' ' :: (message ++ ['\n'])) =
      if stripTrailingWhitespace message = [] then [] else ' ' :: stripTrailingWhitespace message := by
    rw [← newline]
    exact stripTrailingWhitespace_append [' '] (message ++ ['\n'])
  rw [trimmedEnd, stripTrailingWhitespace_append, behind, stripTrailingWhitespace_word]
  by_cases empty : stripTrailingWhitespace message = []
  · simp [empty]
  · simp [empty]

theorem trimmedEnd_ne_nil (message : CString) : trimmedEnd word message ≠ [] := by
  unfold trimmedEnd
  split
  · exact word.nonempty
  · simp

theorem stripTrailingWhitespace_before {rest trimmed : CString}
    (same : stripTrailingWhitespace rest = trimmed) (nonempty : trimmed ≠ []) :
    stripTrailingWhitespace (word.text ++ ' ' :: rest) = word.text ++ ' ' :: trimmed := by
  have whole := stripTrailingWhitespace_append (word.text ++ [' ']) rest
  rw [same, if_neg nonempty] at whole
  simpa using whole

theorem skipSpace_trimmedEnd (message : CString) :
    skipSpace (trimmedEnd word message) = trimmedEnd word message := by
  unfold trimmedEnd
  split
  · simpa using skipSpace_word word []
  · exact skipSpace_word word _

theorem nextWord_trimmedEnd (message : CString) :
    nextWord (some (trimmedEnd word message)) =
      ⟨some (skipSpace (stripTrailingWhitespace message)), word.text⟩ := by
  unfold trimmedEnd
  split
  case isTrue empty =>
    rw [nextWord_last, empty]
    rfl
  case isFalse => exact nextWord_blank word _

end Word

theorem messageOf_day (stamp : DayStamp) (message : CString) :
    messageOf (stamp.line message) = skipSpace (stripTrailingWhitespace message) := by
  have time := stripTrailingWhitespace_before stamp.time
    (stripTrailingWhitespace_end stamp.year message) (trimmedEnd_ne_nil stamp.year message)
  have date := stripTrailingWhitespace_before stamp.date time (by simp)
  have month := stripTrailingWhitespace_before stamp.month date (by simp)
  have day := stripTrailingWhitespace_before stamp.day month (by simp)
  rw [messageOf, DayStamp.line, day, openVpnReadLineSkipDateTime]
  simp only [nextWord_blank, stamp.threeLetters, if_true, skipSpace_word, skipSpace_trimmedEnd,
    nextWord_trimmedEnd, copyStr_some]

theorem messageOf_date (stamp : DateStamp) (message : CString) :
    messageOf (stamp.line message) =
      copyStr (nextWord (some (skipSpace (stripTrailingWhitespace message)))).ptr := by
  have date := stripTrailingWhitespace_before stamp.date
    (stripTrailingWhitespace_end stamp.time message) (trimmedEnd_ne_nil stamp.time message)
  have notThree : ¬ stamp.date.text.length = 3 := by simp [stamp.tenLetters]
  rw [messageOf, DateStamp.line, date, openVpnReadLineSkipDateTime]
  simp only [nextWord_blank, notThree, if_false, skipSpace_trimmedEnd, nextWord_trimmedEnd]

/-- Behind the second stamp nothing but an empty message is left whole. -/
theorem messageOf_date_iff (stamp : DateStamp) (message : CString) :
    messageOf (stamp.line message) = message ↔ message = [] := by
  rw [messageOf_date]
  constructor
  · intro whole
    by_contra nonempty
    have trimmed : (skipSpace (stripTrailingWhitespace message)).length ≤ message.length :=
      (List.dropWhile_suffix isSpace).length_le.trans (List.rdropWhile_prefix isSpace message).length_le
    by_cases blank : skipSpace (stripTrailingWhitespace message) = []
    · rw [blank] at whole
      exact nonempty whole.symm
    · have shorter := getToken_space_shorter blank
      have same := congrArg List.length whole
      have word : (copyStr (nextWord (some (skipSpace (stripTrailingWhitespace message)))).ptr).length <
        (skipSpace (stripTrailingWhitespace message)).length := shorter
      omega
  · rintro rfl
    rfl

/-! ## Logs -/

/-- What `OpenVpnProcess` prints about a line. -/
inductive Notice where
  | error (text : CPtr)
  | warning (text : CPtr)
  | exiting
  deriving DecidableEq

def openVpnNotice (line : CString) : Option Notice :=
  let first := nextWord (openVpnReadLineSkipDateTime (stripTrailingWhitespace line))
  if first.text = "ERROR:".toList then some (.error first.ptr)
  else if first.text = "WARNING:".toList then some (.warning first.ptr)
  else if first.text = "Exiting".toList then some .exiting
  else none

theorem nextWord_copyStr (text : CPtr) : nextWord (some (copyStr text)) = nextWord text := by
  cases text <;> rfl

theorem openVpnLine_congr {line other : CString} (same : messageOf line = messageOf other)
    (dev : CString) : openVpnLine dev (stripTrailingWhitespace line) =
      openVpnLine dev (stripTrailingWhitespace other) := by
  have word := congrArg (fun message => nextWord (some message)) same
  simp only [messageOf, nextWord_copyStr] at word
  simp only [openVpnLine, word]

theorem openVpnNotice_congr {line other : CString} (same : messageOf line = messageOf other) :
    openVpnNotice line = openVpnNotice other := by
  have word := congrArg (fun message => nextWord (some message)) same
  simp only [messageOf, nextWord_copyStr] at word
  simp only [openVpnNotice, word]

/-- A message, and a stamp of each kind for it. -/
structure LogEntry where
  dayStamp : DayStamp
  dateStamp : DateStamp
  message : CString

def dayLog (log : List LogEntry) : List CString :=
  log.map fun entry => entry.dayStamp.line entry.message

def dateLog (log : List LogEntry) : List CString :=
  log.map fun entry => entry.dateStamp.line entry.message

/-- Either kind of stamp leaves the messages as they are, and the runs and the
output are the same. -/
structure Alike (log : List LogEntry) : Prop where
  stripped : ∀ entry ∈ log, messageOf (entry.dayStamp.line entry.message) = entry.message ∧
    messageOf (entry.dateStamp.line entry.message) = entry.message
  runs : ∀ settings fuel fuel' vpn env env' dev dev' made made',
    openVpnProcess settings fuel vpn env [] = some (.returned dev, made) →
    openVpnProcess settings fuel' vpn env' [] = some (.returned dev', made') →
    heededLines made = dayLog log → heededLines made' = dateLog log →
      brackets made = brackets made' ∧ dev = dev'
  output : (dayLog log).filterMap openVpnNotice = (dateLog log).filterMap openVpnNotice

theorem openVpnUps_congr {lines others : List CString}
    (same : List.Forall₂ (fun line other => messageOf line = messageOf other) lines others)
    (dev : CString) : openVpnUps dev lines = openVpnUps dev others ∧
      openVpnDev dev lines = openVpnDev dev others := by
  induction same generalizing dev with
  | nil => exact ⟨rfl, rfl⟩
  | @cons line other lines others head _ inductionHypothesis =>
      have event := openVpnLine_congr head dev
      constructor
      · simp only [openVpnUps, event, (inductionHypothesis _).1]
      · simp only [openVpnDev, List.foldl_cons, event]
        exact (inductionHypothesis _).2

theorem openVpnNotices_congr {lines others : List CString}
    (same : List.Forall₂ (fun line other => messageOf line = messageOf other) lines others) :
    lines.filterMap openVpnNotice = others.filterMap openVpnNotice := by
  induction same with
  | nil => rfl
  | cons head _ inductionHypothesis =>
      rw [List.filterMap_cons, List.filterMap_cons, openVpnNotice_congr head, inductionHypothesis]

theorem sameMessages {log : List LogEntry} (empty : ∀ entry ∈ log, entry.message = []) :
    List.Forall₂ (fun line other => messageOf line = messageOf other) (dayLog log) (dateLog log) := by
  rw [dayLog, dateLog, List.forall₂_map_left_iff, List.forall₂_map_right_iff, List.forall₂_same]
  intro entry member
  rw [empty entry member, messageOf_day, messageOf_date]
  rfl

/-- The two kinds of stamp are alike for no message but the empty one. -/
theorem openVpnProcess_alike_iff (log : List LogEntry) :
    Alike log ↔ ∀ entry ∈ log, entry.message = [] := by
  constructor
  · exact fun alike entry member => (messageOf_date_iff _ _).mp (alike.stripped entry member).2
  · intro empty
    have same := sameMessages empty
    refine ⟨fun entry member => ?_, ?_, openVpnNotices_congr same⟩
    · rw [messageOf_day, empty entry member]
      exact ⟨rfl, (messageOf_date_iff entry.dateStamp []).mpr rfl⟩
    · intro settings fuel fuel' vpn env env' dev dev' made made' first second isDay isDate
      have followed := openVpnProcess_ends.yields.returned first
      have followed' := openVpnProcess_ends.yields.returned second
      have congruent := openVpnUps_congr same "????".toList
      refine ⟨?_, ?_⟩
      · rw [followed.follows, followed'.follows, isDay, isDate, congruent.1]
      · rw [followed.last, followed'.last, isDay, isDate, congruent.2]

def stampWord (text : CString) (nonempty : text ≠ []) (chars : text.all isStampChar = true) :
    StampWord := ⟨text, nonempty, List.all_eq_true.mp chars⟩

def completedEntry : LogEntry where
  dayStamp :=
    { day := stampWord "Wed".toList (by decide) (by decide)
      month := stampWord "Mar".toList (by decide) (by decide)
      date := stampWord "3".toList (by decide) (by decide)
      time := stampWord "10:00:00".toList (by decide) (by decide)
      year := stampWord "2021".toList (by decide) (by decide)
      threeLetters := by decide }
  dateStamp :=
    { date := stampWord "2021-03-03".toList (by decide) (by decide)
      time := stampWord "10:00:00".toList (by decide) (by decide)
      tenLetters := by decide }
  message := "Initialization Sequence Completed".toList

theorem completed_unseen_behind_date :
    openVpnUps "tun0".toList (dayLog [completedEntry]) = ["tun0".toList] ∧
      openVpnUps "tun0".toList (dateLog [completedEntry]) = [] ∧ ¬ Alike [completedEntry] := by
  refine ⟨by decide, by decide, fun alike => ?_⟩
  have whole := (alike.stripped completedEntry (List.mem_singleton.mpr rfl)).2
  exact absurd whole (by decide)

end VpnMgr.Client
