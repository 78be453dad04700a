import Mathlib.Data.List.Infix

/-! Substring tests, trimming and case folding of texts. -/

namespace Text

def containsText (needle text : String) : Bool := text.toList.tails.any (needle.toList.isPrefixOf ·)

def strip (text : String) : String :=
  String.ofList
    ((text.toList.dropWhile Char.isWhitespace).reverse.dropWhile Char.isWhitespace).reverse

-- Runs of white space become one blank, none at the ends.
def collapse (text : String) : String :=
  String.ofList ([' '].intercalate ((text.toList.splitOnP Char.isWhitespace).filter (· ≠ [])))

def orText (value : Option String) (fallback : String) : String :=
  match value with
  | some text => if text = "" then fallback else text
  | none => fallback

lemma containsText_of_infix {needle text : String} (h : needle.toList <:+: text.toList) :
    containsText needle text = true := by
  obtain ⟨rest, hprefix, hsuffix⟩ := List.infix_iff_prefix_suffix.mp h
  rw [containsText, List.any_eq_true]
  exact ⟨rest, (List.mem_tails _ _).mpr hsuffix, List.isPrefixOf_iff_prefix.mpr hprefix⟩

lemma char_toUpper_toUpper (c : Char) : c.toUpper.toUpper = c.toUpper := by
  unfold Char.toUpper
  split_ifs with hlower hagain
  · have hup : (c.val + ('A'.val - 'a'.val)).toNat = c.val.toNat - 32 := by
      have hge : 97 ≤ c.val.toNat := hlower.1
      have hle : c.val.toNat ≤ 122 := hlower.2
      rw [UInt32.toNat_add]
      change (c.val.toNat + 4294967264) % 4294967296 = _
      omega
    have hge : 97 ≤ (c.val + ('A'.val - 'a'.val)).toNat := hagain.1
    have hle : c.val.toNat ≤ 122 := hlower.2
    omega
  · rfl
  · rfl

lemma toUpper_toUpper (s : String) : s.toUpper.toUpper = s.toUpper := by
  apply String.toList_inj.mp
  simp only [String.toUpper, String.toList_map, List.map_map]
  congr 1
  funext c
  exact char_toUpper_toUpper c

end Text
