import Mathlib.Data.Countable.Basic
import Mathlib.Data.Fintype.EquivFin
import Mathlib.Data.Countable.Small
import Mathlib.Tactic.DeriveCountable
import Mathlib.Tactic

namespace UniDERP

instance countable_char : Countable Char :=
  Function.Injective.countable (f := Char.toNat) fun _ _ h => Char.ext (UInt32.toNat_inj.mp h)

instance countable_string : Countable String :=
  Function.Injective.countable (f := String.toList) fun _ _ => String.toList_inj.mp

instance infinite_string : Infinite String :=
  .of_injective (fun n : ℕ => String.ofList (List.replicate n 'a')) fun a b h => by
    simpa using congrArg (fun s => s.toList.length) h

instance countable_uint8 : Countable UInt8 :=
  Function.Injective.countable (f := UInt8.toNat) fun _ _ => UInt8.toNat_inj.mp

theorem exists_injective (α β : Type) [Countable α] [Infinite β] :
    ∃ f : α → β, Function.Injective f := by
  obtain ⟨f, hf⟩ := Countable.exists_injective_nat α
  exact ⟨Infinite.natEmbedding β ∘ f, (Infinite.natEmbedding β).injective.comp hf⟩

end UniDERP
