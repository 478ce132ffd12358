import Lowering.Proofs.Hoist.Lowers
import Lowering.Proofs.Tree.Normalize

/-!
# Lexical well-formedness

A body is well-formed for some locals from outside if, nested methods apart, every jump has its label
on a statement of a block around it, every local that is read or assigned comes from outside or is
declared in front, in a block around it, every `break` stands in a loop or a switch and every
`continue` in a loop.

`Surroundings` is what a statement can rely on. More to rely on does no harm
(`Stmt.WellFormed.mono`), and normalizing keeps a body well-formed (`Block.WellFormed.normalize`).
-/

namespace Lowering

/-! ## Surroundings -/

/-- What a statement can rely on. -/
structure Surroundings where
  /-- the locals that are declared in front of it, in the blocks around it, or come from outside -/
  locals : String → Prop
  /-- the labels of the blocks around it -/
  labels : String → Prop
  /-- in a loop or a switch -/
  leavable : Bool
  /-- in a loop -/
  repeatable : Bool

namespace Surroundings

/-- Around a whole body: some locals come from outside. -/
def outside (names : String → Prop) : Surroundings := ⟨names, fun _ => False, false, false⟩

def inLoop (c : Surroundings) : Surroundings := { c with leavable := true, repeatable := true }

def inSwitch (c : Surroundings) : Surroundings := { c with leavable := true }

/-- In a block with these statements. -/
def enter (c : Surroundings) (stmts : List Stmt) : Surroundings :=
  { c with labels := fun label => label ∈ Stmt.labels stmts ∨ c.labels label }

/-- Behind statements of the same block. -/
def behind (c : Surroundings) (stmts : List Stmt) : Surroundings :=
  { c with locals := fun x => x ∈ stmts.flatMap Stmt.binds ∨ c.locals x }

/-- Every local of an expression can be used. -/
def Knows (c : Surroundings) (e : Expr) : Prop := ∀ x ∈ e.locals, c.locals x

/-- All that one can rely on is there also in `c'`. -/
structure Le (c c' : Surroundings) : Prop where
  locals : ∀ x, c.locals x → c'.locals x
  labels : ∀ label, c.labels label → c'.labels label
  leavable : c.leavable = true → c'.leavable = true
  repeatable : c.repeatable = true → c'.repeatable = true

theorem Le.refl (c : Surroundings) : c.Le c := ⟨fun _ h => h, fun _ h => h, fun h => h, fun h => h⟩

namespace Le

variable {c c' c'' : Surroundings}

theorem trans (h : c.Le c') (h' : c'.Le c'') : c.Le c'' where
  locals x hx := h'.locals x (h.locals x hx)
  labels l hl := h'.labels l (h.labels l hl)
  leavable hc := h'.leavable (h.leavable hc)
  repeatable hc := h'.repeatable (h.repeatable hc)

/-- More surroundings stay more inside a loop. -/
theorem inLoop (h : c.Le c') : c.inLoop.Le c'.inLoop :=
  { h with leavable := fun _ => rfl, repeatable := fun _ => rfl }

theorem inSwitch (h : c.Le c') : c.inSwitch.Le c'.inSwitch := { h with leavable := fun _ => rfl }

/-- A block may carry more labels. -/
theorem enter (h : c.Le c') {stmts stmts' : List Stmt} (hl : Stmt.labels stmts ⊆ Stmt.labels stmts') :
    (c.enter stmts).Le (c'.enter stmts') :=
  { h with labels := fun label => Or.imp (fun hm => hl hm) (h.labels label) }

/-- Statements in front may declare more. -/
theorem behind (h : c.Le c') {stmts stmts' : List Stmt}
    (hb : stmts.flatMap Stmt.binds ⊆ stmts'.flatMap Stmt.binds) :
    (c.behind stmts).Le (c'.behind stmts') :=
  { h with locals := fun x => Or.imp (fun hm => hb hm) (h.locals x) }

/-- An expression whose locals are known stays one where more can be relied on. -/
theorem knows (h : c.Le c') {e : Expr} (he : c.Knows e) : c'.Knows e :=
  fun x hx => h.locals x (he x hx)

/-- To enter a block takes nothing away. -/
theorem of_enter {stmts : List Stmt} (h : (c.enter stmts).Le c') : c.Le c' :=
  { h with labels := fun label hl => h.labels label (.inr hl) }

theorem of_behind {stmts : List Stmt} (h : (c.behind stmts).Le c') : c.Le c' :=
  { h with locals := fun x hx => h.locals x (.inr hx) }

end Le

theorem le_enter (c : Surroundings) (stmts : List Stmt) : c.Le (c.enter stmts) := (Le.refl _).of_enter

theorem le_behind (c : Surroundings) (stmts : List Stmt) : c.Le (c.behind stmts) := (Le.refl _).of_behind

@[simp] theorem behind_nil (c : Surroundings) : c.behind [] = c := by
  simp [behind]

/-- Locals are known behind all statements that declare them, in one go or step by step. -/
@[simp] theorem behind_behind (c : Surroundings) (ss ts : List Stmt) :
    (c.behind ss).behind ts = c.behind (ss ++ ts) := by
  have hlocals : ((c.behind ss).behind ts).locals = (c.behind (ss ++ ts)).locals := by
    funext x
    simp only [behind, List.flatMap_append, List.mem_append]
    exact propext (or_left_comm.trans or_assoc.symm)
  exact congrArg (fun names => { c with locals := names }) hlocals

end Surroundings

/-! ## Well-formed statements -/

mutual

/-- The statement finds in its surroundings all that it relies on. -/
def Stmt.WellFormed (c : Surroundings) : Stmt → Prop
  | .block body _ => body.WellFormed c
  | .ite test yes no _ => c.Knows test ∧ yes.WellFormed c ∧ Stmt.WellFormedOption c no
  | .loop test body _ => c.Knows test ∧ body.WellFormed c.inLoop
  | .attempt body handler cleanup _ =>
    body.WellFormed c ∧ Block.WellFormedOption c handler ∧ Block.WellFormedOption c cleanup
  | .labeled _ body _ => body.WellFormed c
  | .goto label _ => c.labels label
  | .exit _ => c.leavable = true
  | .next _ => c.repeatable = true
  | .eval value _ | .raise value _ => c.Knows value
  | .declare _ _ value _ | .ret value _ | .suspend _ value _ => ∀ e ∈ value, c.Knows e
  | .method _ _ => True
  | .switch discriminant cases _ => c.Knows discriminant ∧ Case.WellFormedAll c cases

def Stmt.WellFormedOption (c : Surroundings) : Option Stmt → Prop
  | none => True
  | some s => s.WellFormed c

/-- The same for statements of a block, one behind the other. -/
def Stmt.WellFormedAll (c : Surroundings) : List Stmt → Prop
  | [] => True
  | s :: ss => s.WellFormed c ∧ Stmt.WellFormedAll (c.behind [s]) ss

/-- Every statement of a block also has the labels of the block. -/
def Block.WellFormed (c : Surroundings) : Block → Prop
  | ⟨stmts, _⟩ => Stmt.WellFormedAll (c.enter stmts) stmts

def Block.WellFormedOption (c : Surroundings) : Option Block → Prop
  | none => True
  | some b => b.WellFormed c

def Case.WellFormedAll (c : Surroundings) : List Case → Prop
  | [] => True
  | ⟨test, body⟩ :: cases =>
    (∀ e ∈ test, c.Knows e) ∧ body.WellFormed c.inSwitch ∧ Case.WellFormedAll c cases

end

/-- A whole body is well-formed where the locals `names` come from outside. -/
def Block.WellFormedFor (names : String → Prop) (body : Block) : Prop :=
  body.WellFormed (.outside names)

/-! ## More to rely on -/

mutual

/-- **A well-formed statement is so where there is more to rely on.** -/
theorem Stmt.WellFormed.mono {c c' : Surroundings} (hc : c.Le c') {s : Stmt} (h : s.WellFormed c) :
    s.WellFormed c' := by
  cases s with
  | block body span =>
    rw [Stmt.WellFormed] at h ⊢
    exact Block.WellFormed.mono hc h
  | ite test yes no span =>
    rw [Stmt.WellFormed] at h ⊢
    exact ⟨hc.knows h.1, Stmt.WellFormed.mono hc h.2.1, Stmt.WellFormedOption.mono hc h.2.2⟩
  | loop test body span =>
    rw [Stmt.WellFormed] at h ⊢
    exact ⟨hc.knows h.1, Stmt.WellFormed.mono hc.inLoop h.2⟩
  | attempt body handler cleanup span =>
    rw [Stmt.WellFormed] at h ⊢
    exact ⟨Block.WellFormed.mono hc h.1, Block.WellFormedOption.mono hc h.2.1,
      Block.WellFormedOption.mono hc h.2.2⟩
  | labeled label body span =>
    rw [Stmt.WellFormed] at h ⊢
    exact Stmt.WellFormed.mono hc h
  | goto label span => exact hc.labels label h
  | exit span => exact hc.leavable h
  | next span => exact hc.repeatable h
  | eval value span => exact hc.knows h
  | raise value span => exact hc.knows h
  | declare name ty init span => exact fun e he => hc.knows (h e he)
  | ret value span => exact fun e he => hc.knows (h e he)
  | suspend kind value span => exact fun e he => hc.knows (h e he)
  | method decl span => trivial
  | switch discriminant cases span =>
    rw [Stmt.WellFormed] at h ⊢
    exact ⟨hc.knows h.1, Case.WellFormedAll.mono hc h.2⟩

theorem Stmt.WellFormedOption.mono {c c' : Surroundings} (hc : c.Le c') {s : Option Stmt}
    (h : Stmt.WellFormedOption c s) : Stmt.WellFormedOption c' s := by
  cases s with
  | none => trivial
  | some s => exact Stmt.WellFormed.mono hc h

/-- Statement by statement, and each one knows the locals of those in front of it. -/
theorem Stmt.WellFormedAll.mono {c c' : Surroundings} (hc : c.Le c') {ss : List Stmt}
    (h : Stmt.WellFormedAll c ss) : Stmt.WellFormedAll c' ss := by
  cases ss with
  | nil => trivial
  | cons s ss =>
    rw [Stmt.WellFormedAll] at h ⊢
    exact ⟨Stmt.WellFormed.mono hc h.1,
      Stmt.WellFormedAll.mono (hc.behind (List.Subset.refl _)) h.2⟩

/-- A block is well-formed wherever more can be relied on. -/
theorem Block.WellFormed.mono {c c' : Surroundings} (hc : c.Le c') {b : Block} (h : b.WellFormed c) :
    b.WellFormed c' := by
  cases b with
  | mk stmts span =>
    rw [Block.WellFormed] at h ⊢
    exact Stmt.WellFormedAll.mono (hc.enter (List.Subset.refl _)) h

theorem Block.WellFormedOption.mono {c c' : Surroundings} (hc : c.Le c') {b : Option Block}
    (h : Block.WellFormedOption c b) : Block.WellFormedOption c' b := by
  cases b with
  | none => trivial
  | some b => exact Block.WellFormed.mono hc h

theorem Case.WellFormedAll.mono {c c' : Surroundings} (hc : c.Le c') {cases : List Case}
    (h : Case.WellFormedAll c cases) : Case.WellFormedAll c' cases := by
  cases cases with
  | nil => trivial
  | cons case rest =>
    cases case with
    | mk test body =>
      rw [Case.WellFormedAll] at h ⊢
      exact ⟨fun e he => hc.knows (h.1 e he), Block.WellFormed.mono hc.inSwitch h.2.1,
        Case.WellFormedAll.mono hc h.2.2⟩

end

/-! ## Statements one behind the other -/

namespace Stmt.WellFormedAll

variable {c : Surroundings} {ss ts : List Stmt}

/-- Statements are well-formed one behind the other if the later ones are so behind the first. -/
theorem append (h : WellFormedAll c ss) (h' : WellFormedAll (c.behind ss) ts) :
    WellFormedAll c (ss ++ ts) := by
  induction ss generalizing c with
  | nil => rwa [Surroundings.behind_nil] at h'
  | cons s ss ih =>
    rw [WellFormedAll] at h
    rw [List.cons_append, WellFormedAll]
    exact ⟨h.1, ih h.2 (by rwa [Surroundings.behind_behind])⟩

theorem singleton {s : Stmt} (h : s.WellFormed c) : WellFormedAll c [s] := by
  rw [WellFormedAll]
  exact ⟨h, trivial⟩

/-- Statements that are well-formed at the beginning of a block are so in a row. -/
theorem of_forall (h : ∀ s ∈ ss, s.WellFormed c) : WellFormedAll c ss := by
  induction ss generalizing c with
  | nil => trivial
  | cons s ss ih =>
    rw [List.forall_mem_cons] at h
    rw [WellFormedAll]
    exact ⟨h.1, ih fun t ht => (h.2 t ht).mono (c.le_behind [s])⟩

end Stmt.WellFormedAll

/-! ## Normalizing -/

/-- Normalizing keeps the labels of a block, since blocks are only put below them. -/
theorem Stmt.labels_normalizeAll (ss : List Stmt) : labels (normalizeAll ss) = labels ss := by
  induction ss with
  | nil => rw [normalizeAll]
  | cons s ss ih =>
    rw [normalizeAll, labels_cons, labels_cons s, ih]
    cases s <;> rw [normalize] <;> rfl

/-- A statement may stand in a block of its own. -/
theorem Stmt.WellFormed.asBlock {c : Surroundings} {s : Stmt} (h : s.WellFormed c) :
    s.asBlock.WellFormed c := by
  have hmk : (Block.mk [s] s.span).WellFormed c := by
    rw [Block.WellFormed]
    exact .singleton (h.mono (c.le_enter [s]))
  cases s with
  | block body span => exact h
  | _ =>
    show (Stmt.block _ _).WellFormed c
    rw [Stmt.WellFormed]
    exact hmk

mutual

/-- Braces around a branch change no scope: no declaration stands alone on one. -/
theorem Stmt.WellFormed.normalize {c : Surroundings} {s : Stmt} (h : s.WellFormed c) :
    s.normalize.WellFormed c := by
  cases s with
  | block body span =>
    rw [Stmt.WellFormed] at h
    rw [Stmt.normalize, Stmt.WellFormed]
    exact Block.WellFormed.normalize h
  | ite test yes no span =>
    rw [Stmt.WellFormed] at h
    rw [Stmt.normalize, Stmt.WellFormed]
    exact ⟨h.1, (Stmt.WellFormed.normalize h.2.1).asBlock, Stmt.WellFormedOption.normalize h.2.2⟩
  | loop test body span =>
    rw [Stmt.WellFormed] at h
    rw [Stmt.normalize, Stmt.WellFormed]
    exact ⟨h.1, (Stmt.WellFormed.normalize h.2).asBlock⟩
  | attempt body handler cleanup span =>
    rw [Stmt.WellFormed] at h
    rw [Stmt.normalize, Stmt.WellFormed]
    exact ⟨Block.WellFormed.normalize h.1, Block.WellFormedOption.normalize h.2.1,
      Block.WellFormedOption.normalize h.2.2⟩
  | labeled label body span =>
    rw [Stmt.WellFormed] at h
    rw [Stmt.normalize, Stmt.WellFormed]
    exact (Stmt.WellFormed.normalize h).asBlock
  | switch discriminant cases span =>
    rw [Stmt.WellFormed] at h
    rw [Stmt.normalize, Stmt.WellFormed]
    exact ⟨h.1, Case.WellFormedAll.normalize h.2⟩
  | goto _ _ | exit _ | next _ | eval _ _ | declare _ _ _ _ | ret _ _ | suspend _ _ _ | raise _ _
  | method _ _ =>
    rw [Stmt.normalize]
    exact h

theorem Stmt.WellFormedOption.normalize {c : Surroundings} {s : Option Stmt}
    (h : Stmt.WellFormedOption c s) : Stmt.WellFormedOption c (Stmt.normalizeOption s) := by
  cases s with
  | none =>
    rw [Stmt.normalizeOption]
    trivial
  | some s =>
    rw [Stmt.normalizeOption]
    exact (Stmt.WellFormed.normalize h).asBlock

/-- The locals that are declared in front stay declared. -/
theorem Stmt.WellFormedAll.normalize {c : Surroundings} {ss : List Stmt}
    (h : Stmt.WellFormedAll c ss) : Stmt.WellFormedAll c (Stmt.normalizeAll ss) := by
  cases ss with
  | nil =>
    rw [Stmt.normalizeAll]
    trivial
  | cons s ss =>
    rw [Stmt.WellFormedAll] at h
    rw [Stmt.normalizeAll, Stmt.WellFormedAll]
    refine ⟨Stmt.WellFormed.normalize h.1, ?_⟩
    refine (Stmt.WellFormedAll.normalize h.2).mono ((Surroundings.Le.refl c).behind ?_)
    rw [List.flatMap_singleton, List.flatMap_singleton]
    cases s <;> rw [Stmt.normalize] <;> exact List.Subset.refl _

/-- **A well-formed body stays so when it is normalized.** -/
theorem Block.WellFormed.normalize {c : Surroundings} {b : Block} (h : b.WellFormed c) :
    b.normalize.WellFormed c := by
  cases b with
  | mk stmts span =>
    rw [Block.WellFormed] at h
    rw [Block.normalize, Block.WellFormed]
    refine (Stmt.WellFormedAll.normalize h).mono ((Surroundings.Le.refl c).enter ?_)
    rw [Stmt.labels_normalizeAll]
    exact List.Subset.refl _

theorem Block.WellFormedOption.normalize {c : Surroundings} {b : Option Block}
    (h : Block.WellFormedOption c b) : Block.WellFormedOption c (Block.normalizeOption b) := by
  cases b with
  | none =>
    rw [Block.normalizeOption]
    trivial
  | some b =>
    rw [Block.normalizeOption]
    exact Block.WellFormed.normalize h

theorem Case.WellFormedAll.normalize {c : Surroundings} {cases : List Case}
    (h : Case.WellFormedAll c cases) : Case.WellFormedAll c (Case.normalizeAll cases) := by
  cases cases with
  | nil =>
    rw [Case.normalizeAll]
    trivial
  | cons case rest =>
    cases case with
    | mk test body =>
      rw [Case.WellFormedAll] at h
      rw [Case.normalizeAll, Case.WellFormedAll]
      exact ⟨h.1, Block.WellFormed.normalize h.2.1, Case.WellFormedAll.normalize h.2.2⟩

end

end Lowering
