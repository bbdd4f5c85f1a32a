import DynamicScope.Proofs.Run.Additions
import DynamicScope.Proofs.Session.Isolation
import DynamicScope.Proofs.Session.Trace
import DynamicScope.Proofs.Soundness.WellFormed

/-! Whatever is done with a session.
Runs may come in any order, with any steps and messages between them. Each run comes to what it comes
to in a session of its own, and the trace file is always what those sessions would write, one after
the other. -/

namespace DynamicScope

open Machine

/-- What a host does with a session outside its runs. -/
inductive Operation
  /-- A new environment with the library and the native functions. -/
  | initial
  /-- An object that the host makes, which gets an identity. -/
  | object
  | new (b : Bindings)
  | extended (env : EnvRef) (name : Name) (value : Value)
  | merged (env : EnvRef) (others : List (Name × Value))
  | assign (env : EnvRef) (name : Json) (value : Value)
  | lookup (env : EnvRef) (name : Json)
  | read (env : EnvRef) (name : Json)
  | evaluate (calls : Nat) (env : EnvRef) (tree : Ast)
  | execute (budget : Budget) (tree : Ast) (s : State)

def Operation.step (setup : Setup) : Operation → Machine Unit
  | .initial => do let _ ← setup.initialEnvironment
  | .object => do let _ ← freshIdentity
  | .new b => do let _ ← newEnvironment b
  | .extended env name value => do let _ ← Machine.extended env name value
  | .merged env others => do let _ ← Machine.merged env others
  | .assign env name value => Machine.assign env name value
  | .lookup env name => do let _ ← lookup? env name
  | .read env name => do let _ ← Machine.read env name
  | .evaluate calls env tree => do let _ ← setup.evaluate calls env tree
  | .execute budget tree s => do let _ ← setup.execute budget tree s

theorem Operation.follows (setup : Setup) {R : World → World → Prop} (lasting : World.Lasting R)
    (o : Operation) : Follows R (o.step setup) := by
  have steady := lasting.steady
  have alone {α : Type} {m : Machine α} (h : Follows R m) : Follows R (do let _ ← m) :=
    follows_bind steady h fun _ => follows_pure steady ()
  cases o with
  | initial => exact alone (setup.follows_initialEnvironment steady)
  | object => exact alone (follows_freshIdentity steady)
  | new b => exact alone (follows_newEnvironment steady b)
  | extended env name value => exact alone (follows_merged steady env _)
  | merged env others => exact alone (follows_merged steady env others)
  | assign env name value => exact Setup.follows_assign lasting.refl lasting.overwrite env name value
  | lookup env name => exact alone (follows_lookup? steady env name)
  | read env name => exact alone (follows_read steady env name)
  | evaluate calls env tree => exact alone (setup.follows_evaluate steady calls env tree)
  | execute budget tree s => exact alone (setup.follows_execute budget lasting tree s)

theorem Operation.next_le (setup : Setup) (o : Operation) (w : World) :
    w.nextIdentity ≤ ((o.step setup).after w).nextIdentity :=
  (o.follows setup World.lasting_counts w).2

/-- What is done with a session: a program is run, or something else happens between two runs. -/
inductive Act
  | run (budget : Budget) (program : Ast)
  | outside (o : Operation)
  | note (message : String)

def Act.runs (acts : List Act) : List (Budget × Ast) :=
  acts.filterMap fun
    | .run budget program => some (budget, program)
    | _ => none

namespace Session

def act (s : Session) : Act → Session
  | .run budget program => (s.run budget program).2
  | .outside o => (s.perform (o.step s.setup)).2
  | .note message => s.note message

def acts (s : Session) (acts : List Act) : Session := acts.foldl act s

/-- The trace file that a run leaves in a session of its own. -/
def ownFile (setup : Setup) (r : Budget × Ast) : Option String :=
  ((start setup .file).run r.1 r.2).2.file

variable {setup : Setup} {old : Option String} {runs : List (Budget × Ast)} {s : Session}

theorem ownFile_eq (traced : 0 < setup.level) (r : Budget × Ast) :
    ownFile setup r = some (traceText (setup.run r.1 r.2).trace) := by
  have own := run_snd_of_file (s := start setup .file) traced rfl r.1 r.2
  rw [ownFile, own, Setup.run_eq_runIn]
  exact congrArg some (String.empty_append (s := traceText _))

theorem mapM_ownFile (traced : 0 < setup.level) (runs : List (Budget × Ast)) :
    runs.mapM (ownFile setup) =
      some (runs.map fun r => traceText (setup.run r.1 r.2).trace) := by
  rw [funext (ownFile_eq traced)]
  exact List.mapM_pure

/-- What a session has come to after some runs: its file is closed and has the trace of each of them,
or is the old one before the first, and in its world the native functions have their identities. -/
structure Since (setup : Setup) (old : Option String) (runs : List (Budget × Ast)) (s : Session) :
    Prop where
  same : s.setup = setup
  target : s.target = .file
  closed : s.isOpen = false
  counted : s.runs = runs.length
  file : s.file = if runs = [] then old
    else some (String.join (runs.map fun r => traceText (setup.run r.1 r.2).trace))
  next : setup.natives.length ≤ s.world.nextIdentity

namespace Since

theorem runIn_eq (h : Since setup old runs s) (uniform : ∀ entry ∈ setup.natives, entry.2.Uniform)
    (budget : Budget) (program : Ast) :
    ∃ ρ : Nat → Nat, (∀ i j, ρ i = ρ j → i = j) ∧ (∀ i < setup.natives.length, ρ i = i) ∧
      s.setup.runIn budget program s.world =
        ⟨(setup.run budget program).result.map (List.map (Value.rename ρ)),
          (setup.run budget program).trace⟩ := by
  rw [h.same]
  exact Setup.runIn_eq uniform h.next budget program

theorem le_run (h : Since setup old runs s) (traced : 0 < setup.level) (budget : Budget)
    (program : Ast) : s.world ≤ (s.run budget program).2.world := by
  rw [run_snd_of_file (h.same.symm ▸ traced) h.target]
  exact (World.le_trace _ _).trans (Setup.grows_runProgram budget program _)

theorem run (h : Since setup old runs s) (traced : 0 < setup.level)
    (uniform : ∀ entry ∈ setup.natives, entry.2.Uniform) (budget : Budget) (program : Ast) :
    Since setup old (runs ++ [(budget, program)]) (s.run budget program).2 := by
  have next := h.next.trans (World.next_le (h.le_run traced budget program))
  obtain ⟨ρ, -, -, ran⟩ := h.runIn_eq uniform budget program
  rw [run_snd_of_file (h.same.symm ▸ traced) h.target] at next ⊢
  refine ⟨h.same, h.target, rfl, ?_, ?_, next⟩
  · rw [List.length_append, h.counted, List.length_singleton]
  · rw [ran, h.counted, h.file]
    cases runs with
    | nil => simp
    | cons r runs => simp [String.join_append, String.append_assoc]

theorem outside (h : Since setup old runs s) (traced : 0 < setup.level) (o : Operation) :
    Since setup old runs (s.perform (o.step s.setup)).2 := by
  have next := o.next_le s.setup { s.world with trace := #[] }
  rw [perform_snd, settle_of_closed (h.same.symm ▸ traced) h.closed]
  exact ⟨h.same, h.target, h.closed, h.counted, h.file, Nat.le_trans h.next next⟩

theorem note (h : Since setup old runs s) (message : String) :
    Since setup old runs (s.note message) := by
  unfold Session.note
  split
  · exact h
  · rw [if_neg (by simp [h.closed])]
    exact ⟨h.same, h.target, h.closed, h.counted, h.file, h.next⟩

variable (traced : 0 < setup.level) (uniform : ∀ entry ∈ setup.natives, entry.2.Uniform)

include traced uniform

theorem act (h : Since setup old runs s) (a : Act) :
    Since setup old (runs ++ Act.runs [a]) (s.act a) := by
  cases a with
  | run budget program => exact h.run traced uniform budget program
  | outside o => exact (List.append_nil runs).symm ▸ h.outside traced o
  | note message => exact (List.append_nil runs).symm ▸ h.note message

theorem acts (h : Since setup old runs s) (done : List Act) :
    Since setup old (runs ++ Act.runs done) (s.acts done) := by
  induction done generalizing runs s with
  | nil => exact (List.append_nil runs).symm ▸ h
  | cons a done ih =>
    have rest := ih (h.act traced uniform a)
    rw [List.append_assoc] at rest
    unfold Act.runs at rest ⊢
    rwa [← List.filterMap_append] at rest

end Since

/-- Whatever has been done with a session before, its trace file is closed, also after a run that has
failed, and has what sessions of their own would write for the runs, in their order; nothing but a run
changes it. The next run comes to what it comes to in a session of its own but for identities, and it
changes nothing that there is. -/
theorem runs_apart (setup : Setup) (traced : 0 < setup.level)
    (uniform : ∀ entry ∈ setup.natives, entry.2.Uniform) (old : Option String)
    (before : List Act) :
    let s := { start setup .file with file := old }.acts before
    s.isOpen = false ∧
    (s.file = if Act.runs before = [] then old
      else ((Act.runs before).mapM (ownFile setup)).map String.join) ∧
    (∀ o, (s.act (.outside o)).file = s.file) ∧ (∀ message, (s.note message).file = s.file) ∧
    ∀ budget program, (s.run budget program).2.isOpen = false ∧
      s.world ≤ (s.run budget program).2.world ∧
      ∃ ρ : Nat → Nat, (∀ i j, ρ i = ρ j → i = j) ∧ (∀ i < setup.natives.length, ρ i = i) ∧
        (s.run budget program).1 =
          ((start setup .file).run budget program).1.map (List.map (Value.rename ρ)) := by
  intro s
  have first : Since setup old [] { start setup .file with file := old } :=
    ⟨rfl, rfl, rfl, rfl, rfl, Nat.le_refl _⟩
  have h : Since setup old (Act.runs before) s := first.acts traced uniform before
  refine ⟨h.closed, ?_, fun o => ?_, fun message => ?_, fun budget program =>
    ⟨(h.run traced uniform budget program).closed, h.le_run traced budget program, ?_⟩⟩
  · rw [h.file, mapM_ownFile traced]
    rfl
  · exact (h.outside traced o).file.trans h.file.symm
  · exact (h.note message).file.trans h.file.symm
  · obtain ⟨ρ, inj, fixed, ran⟩ := h.runIn_eq uniform budget program
    exact ⟨ρ, inj, fixed, by rw [run_fst, run_start, ran]⟩

end Session

def Ast.packing : Ast :=
  .program (.block (.list [.printStatement (.call (named "pack") (.list [named "pi"]))]))

theorem Session.runs_apart_packing :
    let setup : Setup := ⟨1, [("pack", .pack)]⟩
    let s := { start setup .file with file := some "old\n" }.acts
      [.run ⟨0, 0⟩ (.scalar .null), .outside .initial,
        .outside (.assign 0 (.scalar (.string "pi")) (.boolean true)), .run ⟨0, 0⟩ .packing]
    (∀ entry ∈ setup.natives, entry.2.Uniform) ∧
      s.file = some "run program\nrun program\nfinished with 1 printed value(s)\n" ∧
      ∃ i, (s.run ⟨0, 0⟩ .packing).1 = .ok [.array i [.double .pi]] := by
  have uniform : ∀ entry ∈ [("pack", Native.pack)], entry.2.Uniform := by
    simpa using Native.pure_pack.uniform
  obtain ⟨-, file, -, -, run⟩ := runs_apart ⟨1, [("pack", .pack)]⟩ Nat.one_pos uniform (some "old\n")
    [.run ⟨0, 0⟩ (.scalar .null), .outside .initial,
      .outside (.assign 0 (.scalar (.string "pi")) (.boolean true)), .run ⟨0, 0⟩ .packing]
  obtain ⟨-, -, ρ, -, -, ran⟩ := run ⟨0, 0⟩ .packing
  exact ⟨uniform, file.trans rfl, ρ 8, ran.trans rfl⟩

end DynamicScope
