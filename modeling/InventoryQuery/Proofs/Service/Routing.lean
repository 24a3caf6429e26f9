import InventoryQuery.Proofs.Text.Pieces
import InventoryQuery.Service.Basic
/-!
# Where a request goes

The text of a request, once its placeholders are expanded, tells its kind by how it starts.  Each
kind of request is related to the function that answers it.
-/

namespace InventoryQuery.Service

open Placeholder (Expander)

variable {s : Service} {expand : Expander} {args rest : Text}

theorem answer_of_give (hgive : Text.after? giveStart (s.resolve expand args) = some rest)
    (now : Nat) (inv : Inventory) :
    s.answer expand now args inv =
      ((s.answerGive expand rest inv).1, s, (s.answerGive expand rest inv).2) := by
  simp only [answer, hgive]

theorem answer_of_amount (hgive : Text.after? giveStart (s.resolve expand args) = none)
    (hamount : Text.after? amountStart (s.resolve expand args) = some rest) (now : Nat)
    (inv : Inventory) : s.answer expand now args inv = s.answerAmount expand now rest inv := by
  simp only [answer, hgive, hamount]

theorem answer_of_check (hgive : Text.after? giveStart (s.resolve expand args) = none)
    (hamount : Text.after? amountStart (s.resolve expand args) = none) (now : Nat)
    (inv : Inventory) :
    s.answer expand now args inv = s.answerCheck expand now (s.resolve expand args) inv := by
  simp only [answer, hgive, hamount]

end InventoryQuery.Service
