import Lowering.Tree.Suspension

/-!
# The statements of a body, each at its place

`Block.sites` lists every statement of a body in pre-order, at any depth, with the place where it
stands: whether it is in the body of a try with a handler, the locals that are in scope there, and
its neighbours in its block. A try comes before its body, its handler and its cleanup, in this
order. Nested methods are bodies of their own and are not entered.

What a body must satisfy is then said statement by statement: a condition on a site, for all sites.
-/

namespace Lowering

/-! ## Sites -/

/-- The local that a statement declares for the statements behind it in its block. -/
def Stmt.binds : Stmt → List String
  | .declare name _ _ _ => [name]
  | _ => []

/-- Where a statement stands. -/
structure Context where
  /-- in the body of a try with a handler, at any depth -/
  guarded : Bool := false
  /-- anywhere in a try with a handler, at any depth -/
  inside : Bool := false
  /-- the locals declared in front of it in the blocks around it -/
  scope : List String := []
  /-- the statements in front of it in its block -/
  before : List Stmt := []
  /-- the statements behind it in its block -/
  behind : List Stmt := []

namespace Context

/-- The place of a branch or a loop body, which has no neighbours. -/
def alone (c : Context) : Context := { c with before := [], behind := [] }

/-- In the body of a try; `caught` says whether it has a handler. -/
def inBody (c : Context) (caught : Bool) : Context :=
  { c with guarded := c.guarded || caught, inside := c.inside || caught }

/-- In the handler or the cleanup of a try; `caught` says whether it has a handler. -/
def inClause (c : Context) (caught : Bool) : Context := { c with inside := c.inside || caught }

/-- Between other statements of a block. -/
def between (c : Context) (before behind : List Stmt) : Context := { c with before, behind }

/-- Behind a statement of the same block. -/
def after (c : Context) (s : Stmt) : Context := { c with scope := s.binds ++ c.scope }

end Context

/-- A statement at its place. -/
structure Site where
  stmt : Stmt
  context : Context

mutual

/-- A statement at its place, and all statements inside it. -/
def Stmt.sites (c : Context) : Stmt → List Site
  | .block body span => ⟨.block body span, c⟩ :: body.sites c
  | .ite test yes no span =>
    ⟨.ite test yes no span, c⟩ :: (yes.sites c.alone ++ Stmt.sitesOption c.alone no)
  | .loop test body span => ⟨.loop test body span, c⟩ :: body.sites c.alone
  | .attempt body handler cleanup span =>
    ⟨.attempt body handler cleanup span, c⟩ ::
      (body.sites (c.inBody handler.isSome) ++
        (Block.sitesOption (c.inClause handler.isSome) handler ++
          Block.sitesOption (c.inClause handler.isSome) cleanup))
  | .labeled label body span => ⟨.labeled label body span, c⟩ :: body.sites c.alone
  | .switch discriminant cases span =>
    ⟨.switch discriminant cases span, c⟩ :: Case.sitesAll c cases
  | .goto label span => [⟨.goto label span, c⟩]
  | .exit span => [⟨.exit span, c⟩]
  | .next span => [⟨.next span, c⟩]
  | .eval value span => [⟨.eval value span, c⟩]
  | .declare name ty init span => [⟨.declare name ty init span, c⟩]
  | .ret value span => [⟨.ret value span, c⟩]
  | .suspend kind value span => [⟨.suspend kind value span, c⟩]
  | .raise value span => [⟨.raise value span, c⟩]
  | .method decl span => [⟨.method decl span, c⟩]

def Stmt.sitesOption (c : Context) : Option Stmt → List Site
  | none => []
  | some s => s.sites c

/-- The sites of the statements of a block that stand behind `before`. -/
def Stmt.sitesFrom (c : Context) (before : List Stmt) : List Stmt → List Site
  | [] => []
  | s :: rest => s.sites (c.between before rest) ++ Stmt.sitesFrom (c.after s) (before ++ [s]) rest

/-- All statements of a block at their places. -/
def Block.sites (c : Context) : Block → List Site
  | ⟨stmts, _⟩ => Stmt.sitesFrom c [] stmts

def Block.sitesOption (c : Context) : Option Block → List Site
  | none => []
  | some b => b.sites c

def Case.sitesAll (c : Context) : List Case → List Site
  | [] => []
  | ⟨_, body⟩ :: cases => body.sites c ++ Case.sitesAll c cases

end

/-! ## Parts -/

mutual

/-- Which statements stand in a statement does not depend on where it stands itself. -/
theorem Stmt.map_stmt_sites (c c' : Context) (s : Stmt) :
    (s.sites c).map Site.stmt = (s.sites c').map Site.stmt := by
  cases s with
  | block body span =>
    simp only [Stmt.sites, List.map_cons]
    rw [Block.map_stmt_sites c c' body]
  | ite test yes no span =>
    simp only [Stmt.sites, List.map_cons, List.map_append]
    rw [Stmt.map_stmt_sites c.alone c'.alone yes, Stmt.map_stmt_sitesOption c.alone c'.alone no]
  | loop test body span =>
    simp only [Stmt.sites, List.map_cons]
    rw [Stmt.map_stmt_sites c.alone c'.alone body]
  | attempt body handler cleanup span =>
    simp only [Stmt.sites, List.map_cons, List.map_append]
    rw [Block.map_stmt_sites _ (c'.inBody handler.isSome) body,
      Block.map_stmt_sitesOption _ (c'.inClause handler.isSome) handler,
      Block.map_stmt_sitesOption _ (c'.inClause handler.isSome) cleanup]
  | labeled label body span =>
    simp only [Stmt.sites, List.map_cons]
    rw [Stmt.map_stmt_sites c.alone c'.alone body]
  | switch discriminant cases span =>
    simp only [Stmt.sites, List.map_cons]
    rw [Case.map_stmt_sitesAll c c' cases]
  | goto _ _ | exit _ | next _ | eval _ _ | declare _ _ _ _ | ret _ _ | suspend _ _ _ | raise _ _
  | method _ _ => rfl

theorem Stmt.map_stmt_sitesOption (c c' : Context) (s : Option Stmt) :
    (Stmt.sitesOption c s).map Site.stmt = (Stmt.sitesOption c' s).map Site.stmt := by
  cases s with
  | none => rfl
  | some s => exact Stmt.map_stmt_sites c c' s

/-- Nor does it depend on the statements in front. -/
theorem Stmt.map_stmt_sitesFrom (c c' : Context) (before before' ss : List Stmt) :
    (Stmt.sitesFrom c before ss).map Site.stmt = (Stmt.sitesFrom c' before' ss).map Site.stmt := by
  cases ss with
  | nil => rfl
  | cons s rest =>
    simp only [Stmt.sitesFrom, List.map_append]
    rw [Stmt.map_stmt_sites _ (c'.between before' rest) s,
      Stmt.map_stmt_sitesFrom _ (c'.after s) _ (before' ++ [s]) rest]

theorem Block.map_stmt_sites (c c' : Context) (b : Block) :
    (b.sites c).map Site.stmt = (b.sites c').map Site.stmt := by
  cases b with
  | mk stmts span => exact Stmt.map_stmt_sitesFrom c c' [] [] stmts

theorem Block.map_stmt_sitesOption (c c' : Context) (b : Option Block) :
    (Block.sitesOption c b).map Site.stmt = (Block.sitesOption c' b).map Site.stmt := by
  cases b with
  | none => rfl
  | some b => exact Block.map_stmt_sites c c' b

theorem Case.map_stmt_sitesAll (c c' : Context) (cases : List Case) :
    (Case.sitesAll c cases).map Site.stmt = (Case.sitesAll c' cases).map Site.stmt := by
  cases cases with
  | nil => rfl
  | cons case rest =>
    cases case with
    | mk test body =>
      simp only [Case.sitesAll, List.map_append]
      rw [Block.map_stmt_sites c c' body, Case.map_stmt_sitesAll c c' rest]

end

/-- A statement and all statements inside it. -/
def Stmt.parts (s : Stmt) : List Stmt := (s.sites {}).map Site.stmt

/-- Statements and all statements inside them. -/
def Stmt.partsAll (ss : List Stmt) : List Stmt := (Stmt.sitesFrom {} [] ss).map Site.stmt

namespace Stmt

/-- The parts of a statement are its sites without their places. -/
theorem map_stmt_sites_eq (c : Context) (s : Stmt) : (s.sites c).map Site.stmt = s.parts :=
  map_stmt_sites c {} s

/-- The sites of statements of a block, without their places, are their parts. -/
theorem map_stmt_sitesFrom_eq (c : Context) (before ss : List Stmt) :
    (sitesFrom c before ss).map Site.stmt = partsAll ss :=
  map_stmt_sitesFrom c {} before [] ss

/-- The sites of a block, without their places, are the parts of its statements. -/
theorem map_stmt_sites_block (c : Context) (b : Block) :
    (b.sites c).map Site.stmt = partsAll b.stmts := by
  cases b with
  | mk stmts span => exact map_stmt_sitesFrom_eq c [] stmts

theorem map_stmt_sites_blockOption (c : Context) (b : Option Block) :
    (Block.sitesOption c b).map Site.stmt = b.toList.flatMap fun b => partsAll b.stmts := by
  cases b with
  | none => rfl
  | some b =>
    rw [Option.toList_some, List.flatMap_singleton]
    exact map_stmt_sites_block c b

/-- The sites of the cases of a switch, without their places, are the parts of their bodies. -/
theorem map_stmt_sites_cases (c : Context) (cases : List Case) :
    (Case.sitesAll c cases).map Site.stmt = cases.flatMap fun case => partsAll case.body.stmts := by
  induction cases with
  | nil => rfl
  | cons case rest ih =>
    cases case with
    | mk test body => rw [Case.sitesAll, List.map_append, map_stmt_sites_block, ih, List.flatMap_cons]

/-- A statement comes first among its parts, then what stands inside it, from left to right. -/
@[simp] theorem parts_block (b : Block) (span : Span) :
    (block b span).parts = block b span :: partsAll b.stmts := by
  rw [parts, sites, List.map_cons, map_stmt_sites_block]

@[simp] theorem parts_ite (test : Expr) (yes : Stmt) (no : Option Stmt) (span : Span) :
    (ite test yes no span).parts = ite test yes no span :: (yes.parts ++ no.toList.flatMap parts) := by
  rw [parts, sites, List.map_cons, List.map_append, map_stmt_sites_eq]
  cases no with
  | none => rfl
  | some no =>
    rw [sitesOption, map_stmt_sites_eq, Option.toList_some, List.flatMap_singleton]

@[simp] theorem parts_loop (test : Expr) (body : Stmt) (span : Span) :
    (loop test body span).parts = loop test body span :: body.parts := by
  rw [parts, sites, List.map_cons, map_stmt_sites_eq]

/-- The body of a try comes before its handler, and the handler before the cleanup. -/
@[simp] theorem parts_attempt (body : Block) (handler cleanup : Option Block) (span : Span) :
    (attempt body handler cleanup span).parts =
      attempt body handler cleanup span :: (partsAll body.stmts ++
        ((handler.toList.flatMap fun b => partsAll b.stmts) ++
          cleanup.toList.flatMap fun b => partsAll b.stmts)) := by
  rw [parts, sites, List.map_cons, List.map_append, List.map_append, map_stmt_sites_block,
    map_stmt_sites_blockOption, map_stmt_sites_blockOption]

@[simp] theorem parts_labeled (label : String) (body : Stmt) (span : Span) :
    (labeled label body span).parts = labeled label body span :: body.parts := by
  rw [parts, sites, List.map_cons, map_stmt_sites_eq]

@[simp] theorem parts_switch (discriminant : Expr) (cases : List Case) (span : Span) :
    (switch discriminant cases span).parts =
      switch discriminant cases span :: cases.flatMap fun case => partsAll case.body.stmts := by
  rw [parts, sites, List.map_cons, map_stmt_sites_cases]

@[simp] theorem partsAll_nil : partsAll [] = [] := rfl

@[simp] theorem partsAll_cons (s : Stmt) (ss : List Stmt) :
    partsAll (s :: ss) = s.parts ++ partsAll ss := by
  rw [partsAll, sitesFrom, List.map_append, map_stmt_sites_eq, map_stmt_sitesFrom_eq]

/-- A statement is one of its own parts. -/
theorem self_mem_parts (s : Stmt) : s ∈ s.parts := by
  cases s <;> exact List.mem_cons_self

/-- A part of a list of statements is a part of one of them. -/
theorem mem_partsAll {p : Stmt} {ss : List Stmt} : p ∈ partsAll ss ↔ ∃ s ∈ ss, p ∈ s.parts := by
  induction ss with
  | nil => simp
  | cons s ss ih => simp only [partsAll_cons, List.mem_append, ih, List.mem_cons, exists_eq_or_imp]

theorem parts_subset_partsAll {s : Stmt} {ss : List Stmt} (h : s ∈ ss) : s.parts ⊆ partsAll ss :=
  fun _ hp => mem_partsAll.mpr ⟨s, h, hp⟩

end Stmt

/-! ## What a statement holds itself -/

mutual

/-- The locals that an expression reads or assigns. -/
def Expr.locals : Expr → List String
  | .var name => [name]
  | .assign target value => target :: value.locals
  | .call _ args => Expr.localsAll args
  | .methodCall receiver _ args => receiver.locals ++ Expr.localsAll args
  | .binary _ left right => left.locals ++ right.locals
  | .not value | .cast _ value | .isType value _ | .wrap _ value | .unwrap _ value => value.locals
  | .null | .bool _ | .int _ | .str _ | .this | .wrapNone _ => []

def Expr.localsAll : List Expr → List String
  | [] => []
  | e :: es => e.locals ++ Expr.localsAll es

end

/-- Whether an expression has no call, no method call and no cast, which are all that can throw. -/
def Expr.calm : Expr → Bool
  | .call .. | .methodCall .. | .cast .. => false
  | .assign _ value | .not value | .isType value _ | .wrap _ value | .unwrap _ value => value.calm
  | .binary _ left right => left.calm && right.calm
  | .null | .bool _ | .int _ | .str _ | .var _ | .this | .wrapNone _ => true

/-- The expressions that a statement evaluates itself, outside the statements inside it. -/
def Stmt.exprs : Stmt → List Expr
  | .ite test _ _ _ | .loop test _ _ => [test]
  | .eval value _ | .raise value _ => [value]
  | .declare _ _ value _ | .ret value _ | .suspend _ value _ => value.toList
  | .switch discriminant cases _ => discriminant :: cases.filterMap Case.test
  | .block .. | .attempt .. | .labeled .. | .goto .. | .exit .. | .next .. | .method .. => []

/-- The locals that a statement reads, assigns or declares itself. -/
def Stmt.mentions (s : Stmt) : List String := s.binds ++ s.exprs.flatMap Expr.locals

/-- The label that a statement carries or jumps to. -/
def Stmt.label? : Stmt → Option String
  | .labeled label _ _ | .goto label _ => some label
  | _ => none

/-- The label that a statement jumps to. -/
def Stmt.target? : Stmt → Option String
  | .goto label _ => some label
  | _ => none

/-- The labels that a statement jumps to, at any depth. -/
def Stmt.targets (s : Stmt) : List String := s.parts.filterMap target?

/-- The locals that a statement reads, assigns or declares, at any depth. -/
def Stmt.touched (s : Stmt) : List String := s.parts.flatMap mentions

/-- The locals that statements declare, at any depth. -/
def Stmt.declaredIn (ss : List Stmt) : List String := (partsAll ss).flatMap binds

end Lowering
