import DynamicScope.Proofs.Ast.Subtrees
import DynamicScope.Proofs.Scoping.Reference
import DynamicScope.Proofs.Simulation.View

/-! Names that a run has to do with.
A run asks for the names in its program and, since a function sees the environment of its caller, for
those in the functions that it comes across. What is bound to other names does not matter to it, nor
that it is bound at all. -/

namespace DynamicScope

open Machine

def referring (A : Reference → Prop) : Content where
  name n := ∀ s : Scalar, n = .scalar s → A (.name s.key)
  operator _ := True
  parameters _ := True
  value
    | .builtin _ (.native _ _ index) => A (.native index)
    | _ => True

namespace Referring

variable {A : Reference → Prop}

theorem tree_iff {tree : Ast} :
    (referring A).Tree tree ↔ ∀ key, tree.Mentions key → A (.name key) := by
  constructor
  · rintro h _ ⟨name, contained, rfl⟩
    exact h _ contained name rfl
  · intro h part contained
    cases part with
    | identifier name =>
      rintro s rfl
      exact h _ ⟨s, contained, rfl⟩
    | _ => trivial

theorem value_iff {v : Value} : (referring A).Value v ↔ ∀ r, v.RefersTo r → A r := by
  constructor
  · rintro h r ⟨part, contained, cited⟩
    obtain ⟨here, code⟩ := h part contained
    cases part with
    | builtin i f =>
      cases f with
      | math f => exact cited.elim
      | native name arity index => exact cited ▸ here
    | function i parameters body =>
      obtain ⟨-, inParameters, inBody⟩ := code
      obtain ⟨key, rfl, mentioned | mentioned⟩ := cited
      · exact tree_iff.mp inParameters key mentioned
      · exact tree_iff.mp inBody key mentioned
    | _ => exact cited.elim
  · intro h part contained
    have cited (r : Reference) (cites : part.Cites r) : A r := h r ⟨part, contained, cites⟩
    cases part with
    | builtin i f =>
      cases f with
      | math f => exact ⟨trivial, trivial⟩
      | native name arity index => exact ⟨cited _ rfl, trivial⟩
    | function i parameters body =>
      exact ⟨trivial, trivial, tree_iff.mpr fun key mentioned => cited _ ⟨key, rfl, .inl mentioned⟩,
        tree_iff.mpr fun key mentioned => cited _ ⟨key, rfl, .inr mentioned⟩⟩
    | _ => exact ⟨trivial, trivial⟩

theorem cites_of_isPlain {v : Value} (plain : v.isPlain = true) : (referring A).value v := by
  cases v <;> trivial

theorem laws {setup : Setup} (closed : ∀ index entry r, A (.native index) →
    setup.natives[index]? = some entry → entry.2.Brings r → A r) : (referring A).Laws setup where
  double _ := trivial
  boolean _ := trivial
  undefined := trivial
  array _ _ := trivial
  function _ _ _ := trivial
  unary _ ran := cites_of_isPlain (Value.unary_isPlain ran)
  binary _ _ ran := cites_of_isPlain (Value.binary_isPlain ran)
  library applied := cites_of_isPlain (MathFunction.apply_isPlain applied)
  native := by
    intro i n name arity index entry vs answer here found held ran
    refine value_iff.mpr fun r refers => ?_
    by_cases given : ∃ v ∈ vs, v.RefersTo r
    · obtain ⟨v, listed, referred⟩ := given
      exact value_iff.mp (held v listed) r referred
    · have brings : entry.2.Brings r :=
        ⟨n, vs, answer.1, answer.2, ran, refers, fun v listed referred => given ⟨v, listed, referred⟩⟩
      exact closed index entry r here found brings

end Referring

def relevance (A : Reference → Prop) (ρ : Nat → Nat) : View where
  content := referring A
  rename := ρ
  seen name o o' := A (.name name.key) →
    Option.Rel (fun v v' => v.rename ρ = v' ∧ (referring A).Value v) o o'
  assigned _ := True

namespace Relevance

variable {A : Reference → Prop} {ρ : Nat → Nat} {setup setup' : Setup}

theorem laws (closed : ∀ index entry r, A (.native index) →
      setup.natives[index]? = some entry → entry.2.Brings r → A r)
    (inj : ∀ i j, ρ i = ρ j → i = j) (level : setup.level = setup'.level)
    (answer : ∀ i n n' f vs, (referring A).Value (.builtin i f) → Renames ρ n n' →
      setup'.answer f n' (vs.map (Value.rename ρ)) =
        (setup.answer f n vs).map fun a => (a.1.rename ρ, a.2)) :
    (relevance A ρ).Laws setup setup' where
  content := Referring.laws closed
  inj := inj
  level := level
  answer held next := answer _ _ _ _ _ held next
  bound held _ := .some ⟨rfl, held⟩
  present := by
    intro name o o' named seen
    exact Value.present_related (fun h => ((Value.resembles_rename inj).form h.1).isPresent_eq)
      (seen (named name rfl))
  binds := by
    intro name o o' named _ seen
    cases seen (named name rfl) with
    | none => rfl
    | some _ => rfl

theorem bound_of_agree {b b' : Bindings}
    (agree : ∀ name, A (.name name.key) → b.value? name = b'.value? name)
    (held : ∀ name v, A (.name name.key) → b.value? name = some v → (referring A).Value v) :
    (relevance A id).Bound b b' := by
  intro name relevant
  rw [← agree name relevant]
  cases found : b.value? name with
  | none => exact .none
  | some v => exact .some ⟨Value.rename_id v, held name v relevant found⟩

theorem agree_of_bound {b b' : Bindings} (h : (relevance A id).Bound b b') (name : Name)
    (relevant : A (.name name.key)) : b.value? name = b'.value? name := by
  have both := h name relevant
  generalize b.value? name = o at both ⊢
  generalize b'.value? name = o' at both ⊢
  cases both with
  | none => rfl
  | some same => rw [← same.1, Value.rename_id]

end Relevance

namespace Setup

theorem execute_relevant (setup : Setup) (tree : Ast) {env env' : EnvRef} {w w' : World}
    (there : env < w.size) (there' : env' < w'.size) (supply : w.supply = w'.supply)
    (agree : ∀ name,
      setup.Relevant tree (w.bindings env) (w'.bindings env') (.name name.key) →
        (w.bindings env).value? name = (w'.bindings env').value? name)
    (budget : Budget) (output : Output) :
    SameUpTo (fun b b' => ∀ name,
        setup.Relevant tree (w.bindings env) (w'.bindings env') (.name name.key) →
          b.value? name = b'.value? name)
      (tracked ⟨env, output⟩ ((setup.execute budget tree ⟨env, output⟩).run w))
      (tracked ⟨env', output⟩ ((setup.execute budget tree ⟨env', output⟩).run w')) := by
  have laws : (relevance (setup.Relevant tree (w.bindings env) (w'.bindings env')) id).Laws setup
      setup :=
    Relevance.laws (fun _ _ _ => .brought) (fun _ _ => id) rfl
      fun _ _ _ _ _ _ next => Renames.answer_id setup next
  have bound := Relevance.bound_of_agree agree fun name v relevant found =>
    Referring.value_iff.mpr fun r => .bound relevant (.inl found)
  have inTree : (referring (setup.Relevant tree (w.bindings env) (w'.bindings env'))).Tree tree :=
    Referring.tree_iff.mpr fun _ => .mentioned
  have same := View.execute_same laws rfl there there' supply bound budget inTree
    (fun _ _ => trivial) output
  exact same.imp fun b b' bound => Relevance.agree_of_bound bound

def register (setup : Setup) (name : String) (native : Native) : Setup :=
  { setup with natives := setup.natives ++ [(name, native)] }

/-- All that there is apart from what a native function of the given name adds. -/
def Lacks (setup : Setup) (name : String) : Reference → Prop
  | .name key => key ≠ (Name.ofString name).key
  | .native index => index < setup.natives.length

section Register

variable {setup : Setup} {name : String} (native : Native) {ρ : Nat → Nat}
  (moved : Renames ρ setup.natives.length (setup.natives.length + 1))
  (fixed : ∀ i < setup.natives.length, ρ i = i)

include moved fixed in
theorem firstBindings_register :
    (setup.register name native).firstBindings =
      Bindings.insert (setup.firstBindings.map fun entry => (entry.1, entry.2.rename ρ))
        (.ofString name)
        (.builtin setup.natives.length (.native native.name native.arity setup.natives.length)) := by
  have natives : (setup.register name native).nativeBindings = setup.nativeBindings ++
      [(.ofString name, .builtin setup.natives.length
        (.native native.name native.arity setup.natives.length))] := by
    simp [nativeBindings, register, List.zipIdx_append]
  have length : (setup.register name native).natives.length = setup.natives.length + 1 := by
    simp [register]
  rw [firstBindings, natives, length, Bindings.insertAll, List.foldl_append, firstBindings,
    ← Renames.insertAll_map, Renames.mathBindings_map moved, Renames.nativeBindings_map fixed]
  rfl

variable (natives : ∀ entry ∈ setup.natives,
  entry.2.Uniform ∧ ∀ r, entry.2.Brings r → setup.Lacks name r)

include natives moved in
theorem laws_register :
    (relevance (setup.Lacks name) ρ).Laws setup (setup.register name native) := by
  refine Relevance.laws (fun index entry r _ found => ?_) moved.inj rfl ?_
  · exact (natives entry (List.mem_of_getElem? found)).2 r
  · intro i n n' f vs held next
    rw [← Renames.answer_rename (fun entry listed => (natives entry listed).1) next]
    cases f with
    | math f => rfl
    | native _ _ index =>
      have known : index < setup.natives.length := held.here
      rw [answer, answer, register, List.getElem?_append_left known]

include natives moved fixed in
theorem entered_register : (relevance (setup.Lacks name) ρ).conduct.Entered () setup
    (setup.register name native) setup.startWorld (setup.register name native).startWorld := by
  have laws := laws_register native moved natives
  have length : (setup.register name native).natives.length = setup.natives.length + 1 := by
    simp [register]
  have held := Content.bound_first laws.content (fun _ _ => trivial) fun i known _ _ => known
  have bound : (relevance (setup.Lacks name) ρ).Bound setup.firstBindings
      (setup.register name native).firstBindings := by
    intro other lacks
    rw [firstBindings_register native moved fixed, Bindings.value?_insert, if_neg (Ne.symm lacks),
      Renames.value?_map]
    refine Value.map_related fun v found => ?_
    obtain ⟨entry, listed, rfl⟩ := Bindings.mem_of_value? found
    exact ⟨rfl, held entry listed⟩
  refine ⟨bound, ?_, rfl, ?_⟩
  · change Renames ρ (setup.natives.length + _ + 1) ((setup.register name native).natives.length + _ + 1)
    rw [length]
    exact moved.add (MathFunction.all.length + 1)
  · change (Value.array (setup.natives.length + _) []).rename ρ =
      .array ((setup.register name native).natives.length + _) []
    rw [length, Value.rename_array, moved.fresh]
    rfl

end Register

theorem run_register (setup : Setup) (name : String) (native : Native)
    (natives : ∀ entry ∈ setup.natives,
      entry.2.Uniform ∧ ∀ r, entry.2.Brings r → setup.Lacks name r)
    (budget : Budget) {program : Ast} (unmentioned : ¬ program.Mentions (Name.ofString name).key) :
    ∃ ρ : Nat → Nat, (∀ i j, ρ i = ρ j → i = j) ∧
      (setup.register name native).run budget program =
        ⟨(setup.run budget program).result.map (List.map (Value.rename ρ)),
          (setup.run budget program).trace⟩ := by
  obtain ⟨ρ, moved, fixed⟩ := Renames.exists_moved (Nat.le_succ setup.natives.length)
  have inProgram : (referring (setup.Lacks name)).Tree program :=
    Referring.tree_iff.mpr fun key mentioned same => unmentioned (same ▸ mentioned)
  exact ⟨ρ, moved.inj, View.run_renamed (laws_register native moved natives)
    (entered_register native moved fixed natives) budget
      fun _ block => ⟨inProgram.block block, fun _ _ => trivial⟩⟩

/-- What is bound to names that a statement has nothing to do with is of no consequence. In two
environments that bind the others to the same values, if they bind them at all, it fails alike, or
it comes to the same output and leaves environments that again agree on them, the ones it goes on in
and the ones it was given. So a run is the same, up to identities, when a native function is
registered under a name that occurs neither in the program nor in what other native functions bring
along. Where those bring nothing, the names that count are those that the statement reaches. -/
theorem execute_run_irrelevant (setup : Setup) (tree : Ast) :
    (∀ (env env' : EnvRef) (w w' : World), env < w.size → env' < w'.size → w.supply = w'.supply →
      (∀ name, setup.Relevant tree (w.bindings env) (w'.bindings env') (.name name.key) →
        (w.bindings env).value? name = (w'.bindings env').value? name) →
      ∀ budget output, SameUpTo
        (fun b b' => ∀ name,
          setup.Relevant tree (w.bindings env) (w'.bindings env') (.name name.key) →
            b.value? name = b'.value? name)
        (tracked ⟨env, output⟩ ((setup.execute budget tree ⟨env, output⟩).run w))
        (tracked ⟨env', output⟩ ((setup.execute budget tree ⟨env', output⟩).run w'))) ∧
    (∀ name native,
      (∀ entry ∈ setup.natives, entry.2.Uniform ∧ ∀ r, entry.2.Brings r → setup.Lacks name r) →
      ¬ tree.Mentions (Name.ofString name).key →
      ∀ budget, ∃ ρ : Nat → Nat, (∀ i j, ρ i = ρ j → i = j) ∧
        (setup.register name native).run budget tree =
          ⟨(setup.run budget tree).result.map (List.map (Value.rename ρ)),
            (setup.run budget tree).trace⟩) ∧
    ((∀ entry ∈ setup.natives, ∀ r, ¬ entry.2.Brings r) →
      ∀ b b' key, setup.Relevant tree b b' (.name key) ↔ tree.Reaches b b' key) := by
  refine ⟨?_, ?_, fun natives _ _ _ => relevant_name_iff natives⟩
  · intro env env' w w' there there' supply agree budget output
    exact setup.execute_relevant tree there there' supply agree budget output
  · intro name native natives unmentioned budget
    exact setup.run_register name native natives budget unmentioned

/-- A world with one environment, in which `f` is a function that gives the value of `y`. -/
def lending (z : Bool) : World :=
  .alone [(.ofString "f", .function 0 (.list []) (.named "y")), (.ofString "y", .boolean true),
    (.ofString "z", .boolean z)] ⟨2, #[]⟩

def borrowing : Ast := .printStatement (.call (.named "f") (.list []))

def apartFrom (s : String) (r : Reference) : Prop := r ≠ .name (Name.ofString s).key

theorem tree_apartFrom {s s' : String} (other : s' ≠ s) :
    (referring (apartFrom s)).Tree (.named s') := by
  refine .of_children ?_ trivial
  rintro _ ⟨⟩
  simpa [apartFrom, Name.ofString, Scalar.key] using other

theorem value_apartFrom {z : Bool} : ∀ entry ∈ (lending z).bindings 0,
    (referring (apartFrom "z")).Value entry.2 := by
  have plain (b : Bool) : (referring (apartFrom "z")).Value (.boolean b) :=
    Content.value_of_isPlain rfl trivial
  have lent : (referring (apartFrom "z")).Value (.function 0 (.list []) (.named "y")) :=
    Value.forall_contains_of_elements rfl
      ⟨trivial, trivial, .of_children trivial trivial, tree_apartFrom (by decide)⟩
  simpa [lending, World.bindings, Store.bindings, World.alone] using ⟨lent, plain true, plain z⟩

theorem relevant_borrowing {z z' : Bool} {r : Reference}
    (h : bare.Relevant borrowing ((lending z).bindings 0) ((lending z').bindings 0) r) :
    apartFrom "z" r := by
  induction h with
  | mentioned mentions =>
    have call : (referring (apartFrom "z")).Tree (.call (.named "f") (.list [])) :=
      .of_children trivial ⟨tree_apartFrom (by decide), .of_children trivial trivial⟩
    have inTree : (referring (apartFrom "z")).Tree borrowing := .of_children trivial call
    exact Referring.tree_iff.mp inTree _ mentions
  | bound _ found refers _ =>
    rcases found with found | found
    · obtain ⟨entry, listed, rfl⟩ := Bindings.mem_of_value? found
      exact Referring.value_iff.mp (value_apartFrom entry listed) _ refers
    · obtain ⟨entry, listed, rfl⟩ := Bindings.mem_of_value? found
      exact Referring.value_iff.mp (value_apartFrom entry listed) _ refers
  | brought _ found _ _ => cases found

def printingPack : Ast :=
  .program (.block (.list [.printStatement (.call (.named "pack") (.list [.booleanLiteral true]))]))

theorem unmentioned_printingPack : ¬ printingPack.Mentions (Name.ofString "first").key := by
  have list {items : List Ast} (h : items.Forall (referring (apartFrom "first")).Tree) :
      (referring (apartFrom "first")).Tree (.list items) := .of_children trivial h
  have literal : (referring (apartFrom "first")).Tree (.booleanLiteral true) :=
    .of_children trivial trivial
  have call : (referring (apartFrom "first")).Tree
      (.call (.named "pack") (.list [.booleanLiteral true])) :=
    .of_children trivial ⟨tree_apartFrom (by decide), list literal⟩
  have statements : (referring (apartFrom "first")).Tree (.list [.printStatement _]) :=
    list (Content.Tree.of_children trivial call)
  have inTree : (referring (apartFrom "first")).Tree printingPack :=
    .of_children trivial (Content.Tree.of_children trivial statements)
  exact fun mentions => Referring.tree_iff.mp inTree _ mentions rfl

theorem execute_run_irrelevant_borrowing :
    (∃ c x, tracked ⟨0, ⟨1, []⟩⟩ ((bare.execute ⟨1, 0⟩ borrowing ⟨0, ⟨1, []⟩⟩).run (lending false)) =
      .ok c x ∧ c.output = ⟨2, [.boolean true]⟩) ∧
    (∃ ρ : Nat → Nat, (∀ i j, ρ i = ρ j → i = j) ∧
      ((packing.register "first" .first).run ⟨1, 0⟩ printingPack).result =
        .ok [(Value.array 8 [.boolean true]).rename ρ]) ∧
    ¬ borrowing.Reaches ((lending true).bindings 0) ((lending false).bindings 0)
      (Name.ofString "z").key := by
  refine ⟨?_, ?_, fun reached => ?_⟩
  · have agree (name : Name) (relevant : bare.Relevant borrowing ((lending true).bindings 0)
        ((lending false).bindings 0) (.name name.key)) :
        ((lending true).bindings 0).value? name = ((lending false).bindings 0).value? name := by
      have other : (Name.ofString "z").key ≠ name.key := fun same =>
        relevant_borrowing relevant (congrArg Reference.name same.symm)
      change Bindings.value? [_, _, _] name = Bindings.value? [_, _, _] name
      simp only [Bindings.value?_cons, if_neg other]
    have same := (execute_run_irrelevant bare borrowing).1 0 0 (lending true) (lending false)
      Nat.zero_lt_one Nat.zero_lt_one rfl agree ⟨1, 0⟩ ⟨1, []⟩
    have ran : ∃ c x, tracked ⟨0, ⟨1, []⟩⟩ ((bare.execute ⟨1, 0⟩ borrowing ⟨0, ⟨1, []⟩⟩).run
        (lending true)) = .ok c x ∧ c.output = ⟨2, [.boolean true]⟩ := ⟨_, _, rfl, rfl⟩
    obtain ⟨c, x, ran, printed⟩ := ran
    rw [ran] at same
    generalize tracked _ ((bare.execute _ _ _).run (lending false)) = y at same ⊢
    cases same with
    | ok output _ _ => exact ⟨_, _, rfl, output ▸ printed⟩
  · have natives : ∀ entry ∈ packing.natives,
        entry.2.Uniform ∧ ∀ r, entry.2.Brings r → packing.Lacks "first" r := by
      intro entry listed
      obtain rfl := List.mem_singleton.mp listed
      exact ⟨Native.pure_pack.uniform, fun r brings => absurd brings (Native.not_brings (by simp) r)⟩
    obtain ⟨ρ, inj, same⟩ := (execute_run_irrelevant packing printingPack).2.1 "first" .first natives
      unmentioned_printingPack ⟨1, 0⟩
    refine ⟨ρ, inj, ?_⟩
    rw [same]
    rfl
  · exact relevant_borrowing (((execute_run_irrelevant bare borrowing).2.2 nofun _ _ _).mpr reached) rfl

/-- A native function that makes functions without parameters, which give the value of `z`. -/
def making : Native :=
  ⟨"mk", none, fun identity _ => .ok (.function identity (.list []) (.named "z"), 1)⟩

theorem pure_making : making.Pure where
  keeps h next arguments value used free _ ran := by
    cases ran
    refine ⟨_, Heap.le_put free (.function next (.list []) (.named "z")), Heap.free_put free _, ?_⟩
    simp [Heap.Holds, Heap.put]
  uniform ρ next next' arguments moved := by
    have fresh : ρ next = next' := moved.fresh 0
    simp [making, Except.map, Value.rename, fresh]

def callingMade : Ast :=
  .block (.list [.variableDeclaration (.named "f") (.call (.named "mk") (.list [])),
    .printStatement (.call (.named "f") (.list []))])

def minting (z : Bool) : World :=
  .alone [(.ofString "mk", .builtin 0 (.native "mk" none 0)), (.ofString "z", .boolean z)] ⟨2, #[]⟩

theorem mentions_callingMade {key : Scalar.Key} (h : (Ast.program callingMade).Mentions key) :
    key ≠ (Name.ofString "z").key := by
  obtain ⟨name, contained, rfl⟩ := h
  have listed := Ast.mem_subtrees.mpr contained
  simp [callingMade, Ast.named, Ast.subtrees, Ast.subtreesAll] at listed
  rcases listed with rfl | rfl | rfl <;> decide

theorem reaches_callingMade {z z' : Bool} {key : Scalar.Key}
    (h : callingMade.Reaches ((minting z).bindings 0) ((minting z').bindings 0) key) :
    key ≠ (Name.ofString "z").key := by
  have bound {z : Bool} {name : Name} {v : Value} {key : Scalar.Key}
      (found : ((minting z).bindings 0).value? name = some v) : ¬ v.RefersTo (.name key) := by
    obtain ⟨entry, listed, rfl⟩ := Bindings.mem_of_value? found
    intro refers
    rcases List.mem_pair.mp listed with rfl | rfl
    · cases Value.cites_of_refersTo rfl refers
    · exact Value.cites_of_refersTo rfl refers
  cases h with
  | mentioned h =>
    obtain ⟨name, contained, same⟩ := h
    exact mentions_callingMade ⟨name, .head (List.mem_singleton_self _) contained, same⟩
  | bound _ found refers => exact (found.elim bound bound refers).elim

/-- The names that a tree reaches are not enough where a native function makes functions: two
environments agree on them, and what is printed is not the same; nor does a run stay the same when a
native function is registered under a name that does not occur in the program. -/
theorem outputs_differ_making :
    making.Pure ∧
    (∀ name, callingMade.Reaches ((minting true).bindings 0) ((minting false).bindings 0) name.key →
      ((minting true).bindings 0).value? name = ((minting false).bindings 0).value? name) ∧
    (∃ s w, (execute ⟨0, [("mk", making)]⟩ ⟨1, 0⟩ callingMade ⟨0, ⟨1, []⟩⟩).run (minting true) =
      .ok s w ∧ s.output.values = [.boolean true]) ∧
    (∃ s w, (execute ⟨0, [("mk", making)]⟩ ⟨1, 0⟩ callingMade ⟨0, ⟨1, []⟩⟩).run (minting false) =
      .ok s w ∧ s.output.values = [.boolean false]) ∧
    ¬ (Ast.program callingMade).Mentions (Name.ofString "z").key ∧
    (run ⟨0, [("mk", making)]⟩ ⟨1, 0⟩ (.program callingMade)).result =
      .error (.fault (.undeclared (.string "z"))) ∧
    (run (register ⟨0, [("mk", making)]⟩ "z" .first) ⟨1, 0⟩ (.program callingMade)).result =
      .ok [.builtin 1 (.native "first" none 1)] := by
  refine ⟨pure_making, fun name reached => ?_, ⟨_, _, rfl, rfl⟩, ⟨_, _, rfl, rfl⟩,
    fun mentions => mentions_callingMade mentions rfl, rfl, rfl⟩
  have other : (Name.ofString "z").key ≠ name.key := Ne.symm (reaches_callingMade reached)
  change Bindings.value? [_, _] name = Bindings.value? [_, _] name
  simp only [Bindings.value?_cons, if_neg other]

end Setup

end DynamicScope
