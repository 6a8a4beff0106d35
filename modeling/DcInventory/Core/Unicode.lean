import DcInventory.Core.Whitespace

/-
  This file defines what texts need of the Unicode tables,
  which the application takes from its runtime.

  Key definitions include:
    * `Unicode`
    * `Unicode.casefold`
    * `Unicode.Lawful`
    * `Unicode.FoldsSmall`
-/

/-
  `nfkc` is the normalisation form, `fold` the full case
  folding of one character, `digit` the value of a decimal
  digit, `word` the characters of words in patterns.
-/
structure Unicode where
  nfkc : Text → Text
  fold : Char → Text
  digit : Char → Option Nat
  word : Char → Bool

namespace Unicode

/- `value.casefold()` -/
def casefold (U : Unicode) (value : Text) : Text :=
  value.flatMap U.fold

/-
  U+001C to U+001F: `str.split` takes them for white space,
  the Unicode property White_Space does not have them.
-/
def isSeparator (c : Char) : Bool :=
  28 ≤ c.toNat && c.toNat ≤ 31

/-
  Properties of the tables. White space is neither folded nor
  made by folding; normalisation works separately on both
  sides of white space, which it replaces by white space of
  the same kind, and makes no separators.
-/
structure Lawful (U : Unicode) : Prop where
  fold_space : ∀ c, Text.isSpace c = true → U.fold c = [c]
  fold_solid : ∀ c, Text.isSpace c = false →
    ∀ d ∈ U.fold c, Text.isSpace d = false
  nfkc_nil : U.nfkc [] = []
  nfkc_space : ∀ c, Text.isSpace c = true →
    ∃ d, U.nfkc [c] = [d] ∧ Text.isSpace d = true ∧
      isSeparator d = isSeparator c
  nfkc_append : ∀ c, Text.isSpace c = true → ∀ v w,
    U.nfkc (v ++ c :: w) = U.nfkc v ++ U.nfkc [c] ++ U.nfkc w
  nfkc_separator : ∀ v, ∀ c ∈ U.nfkc v,
    isSeparator c = true → c ∈ v
  digit_solid : ∀ c, U.digit c ≠ none →
    Text.isSpace c = false
  word_solid : ∀ c, U.word c = true → Text.isSpace c = false

/- A small letter of ASCII, or an underscore. -/
def isSmall (c : Char) : Bool :=
  (97 ≤ c.toNat && c.toNat ≤ 122) || c == '_'

/- Small letters and underscores are not folded. -/
def FoldsSmall (U : Unicode) : Prop :=
  ∀ c, isSmall c = true → U.fold c = [c]

/-
  The tables restricted to ASCII, with the two Cyrillic
  letters of distances.
-/
def ascii : Unicode where
  nfkc v := v
  fold c := [c.toLower]
  digit c := if c.isDigit then some (c.toNat - 48) else none
  word c := c.isAlphanum || c == '_' || c == 'к' || c == 'м'

end Unicode
