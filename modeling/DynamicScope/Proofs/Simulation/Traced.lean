import DynamicScope.Proofs.Simulation.Execute
import DynamicScope.Proofs.Value.Operator

/-! Traces compared in another way.
No step looks at the trace, so two executions that are alike apart from their traces are alike with
them too if every pair of events that alike steps record keeps the traces alike. -/

namespace DynamicScope

namespace Likeness

variable {Stage : Type} {r : Likeness Stage} {κ : Stage}
  {T : Array Event → Array Event → Prop}

def tracing (r : Likeness Stage) (T : Array Event → Array Event → Prop) : Likeness Stage :=
  { r with trace := T }

theorem Parts.tracing {related : Ast → Ast → Prop} {unexpected : String → Failure}
    {tree tree' : Ast} (h : r.Parts related unexpected tree tree') :
    (r.tracing T).Parts related unexpected tree tree' := by
  cases h with
  | list same => exact .list same
  | other none none' same => exact .other none none' same

theorem Expression.tracing {tree tree' : Ast} (h : r.Expression tree tree') :
    (r.tracing T).Expression tree tree' := by
  cases h with
  | numeral same => exact .numeral same
  | booleanLiteral b => exact .booleanLiteral b
  | identifier named => exact .identifier named
  | unary op same => exact .unary op same
  | binary op first second => exact .binary op first second
  | conditional chosen first second => exact .conditional chosen first second
  | arrayLiteral same => exact .arrayLiteral same.tracing
  | subscript first second => exact .subscript first second
  | call named same => exact .call named same.tracing
  | other none none' same => exact .other none none' same

theorem Called.tracing {v v' : Value} (h : r.Called κ v v') : (r.tracing T).Called κ v v' := by
  cases h with
  | builtin i i' f f' => exact .builtin i i' f f'
  | function counted named same => exact .function counted named same
  | other none none' same => exact .other none none' same

theorem Recorded.untracing {level : Nat} {event event' : Unit → Except Failure Event}
    (h : (r.tracing T).Recorded κ level event event') : r.Recorded κ level event event' := by
  cases h with
  | binary left op right => exact .binary left op right
  | call named given => exact .call named given
  | declaration named same => exact .declaration named same
  | definition named same => exact .definition named same
  | assignment named same => exact .assignment named same
  | print same => exact .print same
  | condition same => exact .condition same

theorem Simulates.tracing [Preorder Stage] {setup setup' : Setup} (laws : r.Simulates setup setup')
    (recorded : ∀ {κ level event event'}, r.Recorded κ level event event' →
      Alike (r.tracing T).Traced r.failure (Machine.recorded setup level event)
        (Machine.recorded setup' level event')) : (r.tracing T).Simulates setup setup' :=
  { laws with
    expression := fun h => (laws.expression h).tracing
    called := fun h => (laws.called h).tracing
    recorded := fun h => recorded h.untracing }

end Likeness

namespace Conduct

variable {Stage : Type} [Preorder Stage] {c : Conduct Stage} {κ : Stage}
  {T : Array Event → Array Event → Prop}

def tracing (c : Conduct Stage) (T : Array Event → Array Event → Prop) : Conduct Stage :=
  { c with toLikeness := c.toLikeness.tracing T }

theorem Statement.tracing {tree tree' : Ast} (h : c.Statement tree tree') :
    (c.tracing T).Statement tree tree' := by
  cases h with
  | variableDeclaration named same => exact .variableDeclaration named same
  | functionDeclaration named made => exact .functionDeclaration named made
  | assignment named same => exact .assignment named same
  | printStatement same => exact .printStatement same
  | whileStatement checked same => exact .whileStatement checked same
  | block same => exact .block same.tracing
  | other none none' same => exact .other none none' same

theorem Executes.tracing {setup setup' : Setup} (laws : c.Executes setup setup')
    (recorded : ∀ {κ level event event'}, c.Recorded κ level event event' →
      Alike (c.toLikeness.tracing T).Traced c.failure (Machine.recorded setup level event)
        (Machine.recorded setup' level event')) : (c.tracing T).Executes setup setup' where
  toSimulates := laws.toSimulates.tracing recorded
  stores := laws.stores.trans ⟨fun h => ⟨h.size, h.bindings⟩, fun h => ⟨h.size, h.bindings⟩⟩
  statement h := (laws.statement h).tracing
  named := laws.named
  binds := laws.binds
  unassigned := laws.unassigned
  output_mono := laws.output_mono
  printed := laws.printed

end Conduct

end DynamicScope
