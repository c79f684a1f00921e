/-! Lines of printed text. Lines that have no line feed in them are found again when each has been
ended by one, and what has been written item by item is read item by item. -/

namespace PhpTokens

/-- The lines one after another, each of them ended. -/
def unlines (lines : List String) : String := String.join (lines.map (· ++ "\n"))

/-- The lines of a text that are ended. -/
def linesOf (text : String) : List String := (text.toList.splitOn '\n').dropLast.map String.ofList

theorem toList_unlines_cons (line : String) (lines : List String) :
    (unlines (line :: lines)).toList = line.toList ++ '\n' :: (unlines lines).toList := by
  rw [unlines, List.map_cons, String.join_cons, String.toList_append, String.toList_append,
    List.append_assoc]
  rfl

theorem linesOf_unlines {lines : List String} (h : ∀ line ∈ lines, '\n' ∉ line.toList) :
    linesOf (unlines lines) = lines := by
  induction lines with
  | nil => rfl
  | cons line lines ih =>
    rw [linesOf, toList_unlines_cons,
      List.splitOn_append_cons_self_of_not_mem (h line List.mem_cons_self),
      List.dropLast_cons_of_ne_nil (List.splitOn_ne_nil _ _), List.map_cons, String.ofList_toList]
    exact congrArg _ (ih fun l hl => h l (List.mem_cons_of_mem _ hl))

theorem mapM_of_read {α β γ : Type} {write : α → β} {read : β → Option γ} {shown : α → γ}
    (h : ∀ a, read (write a) = some (shown a)) (items : List α) :
    (items.map write).mapM read = some (items.map shown) := by
  induction items with
  | nil => rfl
  | cons a items ih =>
    rw [List.map_cons, List.mapM_cons, h, ih]
    rfl

end PhpTokens
