/-
  HttpApp/Text/Token.lean --- tokens, the words of HTTP.

  A token is made of ASCII letters and digits and of fifteen marks; names of
  methods, header fields and media types are tokens.
-/

set_option autoImplicit false

namespace HttpApp.Text

/-- The marks that may stand in a token. -/
def tokenMarks : List Char :=
  ['!', '#', '$', '%', '&', '\'', '*', '+', '-', '.', '^', '_', '\x60', '|', '~']

def isTokenChar (c : Char) : Bool := c.isAlphanum || tokenMarks.contains c

/-- Whether a text is a token; the empty text is none. -/
def isToken (s : String) : Bool := !s.isEmpty && s.toList.all isTokenChar

/-- The characters of tokens are visible and below 128. -/
theorem toNat_of_isTokenChar {c : Char} (h : isTokenChar c = true) :
    32 < c.toNat ∧ c.toNat < 127 := by
  simp only [isTokenChar, Bool.or_eq_true] at h
  rcases h with h | h
  · delta Char.isAlphanum Char.isAlpha Char.isUpper Char.isLower Char.isDigit at h
    simp only [Bool.or_eq_true, Bool.and_eq_true, decide_eq_true_eq, UInt32.le_iff_toNat_le,
      Char.toNat_val] at h
    simp at h
    omega
  · have hmarks : (tokenMarks.all fun d => 32 < d.toNat && d.toNat < 127) = true := by decide
    simpa using List.all_eq_true.mp hmarks c (List.contains_iff_mem.mp h)

end HttpApp.Text
