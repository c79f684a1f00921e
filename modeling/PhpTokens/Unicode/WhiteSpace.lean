import PhpTokens.Unicode.CodeSet

/-!
The White_Space property, with the line and paragraph separators. The zero-width characters
are not in it.
-/
namespace PhpTokens.CodeSet

/-- The blanks and line breaks. -/
def whiteSpace : CodeSet := ⟨#[
    0x9, 0xe, 0x20, 0x21, 0x85, 0x86, 0xa0, 0xa1, 0x1680, 0x1681, 0x2000, 0x200b, 0x2028, 0x202a,
    0x202f, 0x2030, 0x205f, 0x2060, 0x3000, 0x3001]⟩

end PhpTokens.CodeSet
