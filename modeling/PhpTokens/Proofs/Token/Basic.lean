import PhpTokens.Proofs.Token.Keyword
import PhpTokens.Proofs.Token.Symbol
import PhpTokens.Token.Basic

/-! The names of the kinds of tokens. No two kinds share a name, so that a kind is told by its name,
and the names are made of letters alone. -/

namespace PhpTokens.Kind

theorem mem_all (kind : Kind) : kind ∈ all := by
  cases kind with
  | keyword word =>
    exact List.mem_append_left _ (List.mem_append_left _ (List.mem_map_of_mem word.mem_all))
  | symbol s => exact List.mem_append_right _ (List.mem_map_of_mem s.mem_all)
  | identifier | number | stringLiteral | variableName | comment | endOfInput => decide

theorem ofLabel?_label (kind : Kind) : ofLabel? kind.label = some kind := by
  have hall : ∀ kind ∈ all, ofLabel? kind.label = some kind := by decide
  exact hall kind kind.mem_all

theorem isAlpha_of_mem_label (kind : Kind) : ∀ c ∈ kind.label.toList, c.isAlpha = true := by
  have hall : ∀ kind ∈ all, kind.label.toList.all Char.isAlpha = true := by decide
  exact List.all_eq_true.mp (hall kind kind.mem_all)

end PhpTokens.Kind
