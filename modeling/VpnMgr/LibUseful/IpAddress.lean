import VpnMgr.LibUseful.Strings

/-!
# Texts of IP addresses

`IPAddress.c`.
-/

namespace VpnMgr.LibUseful

open VpnMgr.Text CString

/-- The loop of `IsIP4Address`. -/
def isIP4Loop (allowDot : Bool) (dots : Nat) : CString → Bool
  | [] => dots = 3
  | c :: rest =>
      if c = '.' then allowDot && isIP4Loop false (dots + 1) rest
      else c.isDigit && isIP4Loop true dots rest

/-- `IsIP4Address`. -/
def isIP4Address (str : CString) : Bool := str ≠ [] && isIP4Loop false 0 str

/-- The loop of `IsIP6Address`; nothing is checked after a `'%'` or a `']'`. -/
def isIP6Loop (colon : Bool) : CString → Bool
  | [] => colon
  | c :: rest =>
      if c = '%' || c = ']' then colon
      else "0123456789abcdefABCDEF:%".toList.contains c && isIP6Loop (colon || c = ':') rest

/-- `IsIP6Address`. -/
def isIP6Address (str : CString) : Bool :=
  match str with
  | [] => false
  | '[' :: rest => isIP6Loop false rest
  | rest => isIP6Loop false rest

/-- `IsIPAddress`. -/
def isIPAddress (str : CString) : Bool := isIP4Address str || isIP6Address str

end VpnMgr.LibUseful
