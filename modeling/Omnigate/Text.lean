import Mathlib.Data.List.DropRight
import Mathlib.Data.List.SplitOn
import Mathlib.Tactic

/-! The string functions of the standard library that the modelled code calls. -/
namespace Omnigate.Text

open List

def isSpace (c : Char) : Bool :=
  c.toNat ∈ [9,10,11,12,13,32,0x85,0xA0,0x1680,0x2028,0x2029,0x202f,0x205f,0x3000] ∨
    (0x2000 ≤ c.toNat ∧ c.toNat ≤ 0x200a)

def trimSpace (s : String) : String :=
  String.ofList ((s.toList.dropWhile isSpace).reverse.dropWhile isSpace).reverse

def contains (s part : String) : Bool := s.toList.tails.any (fun t => part.toList.isPrefixOf t)

def startsWith (s part : String) : Bool := part.toList.isPrefixOf s.toList

def split (separator : Char) (s : String) : List String := (s.toList.splitOn separator).map String.ofList

def trim (c : Char) (s : String) : String :=
  String.ofList ((s.toList.dropWhile (· = c)).reverse.dropWhile (· = c)).reverse

def hasSuffix (s part : String) : Bool := part.toList.isSuffixOf s.toList

def trimSuffix (s part : String) : String :=
  if hasSuffix s part then String.ofList (s.toList.take (s.toList.length - part.toList.length)) else s

theorem trimSuffixAppend (s part) : hasSuffix (s ++ part) part ∧ trimSuffix (s ++ part) part = s := by
  have ends : hasSuffix (s ++ part) part := by simp [hasSuffix]
  refine ⟨ends,?_⟩
  rw [trimSuffix,if_pos ends]
  simp

theorem trimSpaceTwice (s) : trimSpace (trimSpace s) = trimSpace s := by
  have trimmed : ∀ l : List Char, (((l.dropWhile isSpace).reverse.dropWhile isSpace).reverse).dropWhile isSpace =
      ((l.dropWhile isSpace).reverse.dropWhile isSpace).reverse := by
    intro l
    -- what is left begins with the first character that is not a space, if there is any
    have part : ((l.dropWhile isSpace).reverse.dropWhile isSpace).reverse <+: l.dropWhile isSpace :=
      rdropWhile_prefix isSpace (l.dropWhile isSpace)
    rw [dropWhile_eq_self_iff]
    intro nonempty
    have longer := List.IsPrefix.length_le part
    have first := List.IsPrefix.getElem part nonempty
    rw [first]
    exact dropWhile_get_zero_not isSpace l (lt_of_lt_of_le nonempty longer)
  unfold trimSpace
  rw [String.toList_ofList,trimmed s.toList,reverse_reverse,dropWhile_idempotent]

end Omnigate.Text
