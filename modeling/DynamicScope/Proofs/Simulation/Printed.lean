import DynamicScope.Proofs.Simulation.Traced

/-! Outputs compared in another way.
No step looks at the output, so two executions that are alike apart from their outputs are alike with
them too if printing alike values keeps the outputs alike. -/

namespace DynamicScope

namespace Conduct

variable {Stage : Type} [Preorder Stage] {c : Conduct Stage} {O : Output → Output → Prop}

def printing (c : Conduct Stage) (O : Output → Output → Prop) : Conduct Stage :=
  { c with output := fun _ => O }

theorem Statement.printing {tree tree' : Ast} (h : c.Statement tree tree') :
    (c.printing O).Statement tree tree' := by
  cases h with
  | variableDeclaration named same => exact .variableDeclaration named same
  | functionDeclaration named made => exact .functionDeclaration named made
  | assignment named same => exact .assignment named same
  | printStatement same => exact .printStatement same
  | whileStatement checked same => exact .whileStatement checked same
  | block same => exact .block same
  | other none none' same => exact .other none none' same

theorem Executes.printing {setup setup' : Setup} (laws : c.Executes setup setup')
    (printed : ∀ {κ : Stage} {n n' : Nat} {o o' : Output} {v v' : Value}, O o o' → c.value κ v v' →
      O ⟨n, o.values ++ [v]⟩ ⟨n', o'.values ++ [v']⟩) :
    (c.printing O).Executes setup setup' where
  toSimulates := laws.toSimulates
  stores := laws.stores
  statement h := (laws.statement h).printing
  named := laws.named
  binds := laws.binds
  unassigned := laws.unassigned
  output_mono _ h := h
  printed next output value := by
    obtain ⟨κ', up, next, -⟩ := laws.array next .nil
    exact ⟨κ', up, next, printed output value⟩

end Conduct

end DynamicScope
