import DynamicScope.Run.Execute

/-! What an execution comes to.
A visit is the start of a simple statement or of a check of a loop's condition. The visits of an
execution are found by following the executor itself, in order, up to the first failure. -/

namespace DynamicScope

inductive Visit
  | statement (tree : Ast) (s : State) (w : World)
  | condition (expression : Ast) (env : EnvRef) (w : World)

def Visit.declares : Visit → Bool
  | .statement (.variableDeclaration ..) _ _ => true
  | .statement (.functionDeclaration ..) _ _ => true
  | _ => false

def repeatVisits (check : World → Visit) (test : Machine Bool) (body : State → Machine State)
    (inside : State → World → List Visit) : Nat → State → World → List Visit
  | 0, _, _ => []
  | iterations + 1, s, w =>
    check w :: match test.run w with
      | .ok true v => inside s v ++ match (body s).run v with
        | .ok t u => repeatVisits check test body inside iterations t u
        | .error _ _ => []
      | _ => []

namespace Setup

mutual

/-- The visits of a statement. -/
def visits (setup : Setup) (budget : Budget) : Ast → State → World → List Visit
  | .whileStatement expression body, s, w =>
    repeatVisits (.condition expression s.env) (setup.condition budget s.env expression)
      (setup.execute budget body) (setup.visits budget body) budget.iterations s w
  | .block statements, s, w => setup.partVisits budget statements s w
  | tree, s, w => [.statement tree s w]

def partVisits (setup : Setup) (budget : Budget) : Ast → State → World → List Visit
  | .list items, s, w => setup.allVisits budget items s w
  | _, _, _ => []

def allVisits (setup : Setup) (budget : Budget) : List Ast → State → World → List Visit
  | [], _, _ => []
  | item :: items, s, w =>
    setup.visits budget item s w ++ match (setup.execute budget item s).run w with
      | .ok t v => setup.allVisits budget items t v
      | .error _ _ => []

end

/-- Whether executing a tree executes a declaration, at any depth. -/
def declares (setup : Setup) (budget : Budget) (tree : Ast) (s : State) (w : World) : Bool :=
  (setup.visits budget tree s w).any Visit.declares

end Setup

end DynamicScope
