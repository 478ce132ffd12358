import Lowering.Proofs.Hoist.Refusals
import Lowering.Proofs.Tree.Normalize

/-!
# Renaming a body

The *identifiers* of a body are its labels, the targets of its jumps, its locals, what it calls, and its
nested methods with their parameters and bodies. The names of types are none. `Block.rename f` puts
`f x` for each identifier `x`, wherever it occurs.

A map that leaves the identifiers of a body alone leaves the body alone (`Block.rename_eq_self`).
Renaming changes neither which statements suspend nor what normalizing does.
-/

namespace Lowering

variable (f : String → String)

/-! ## Identifiers -/

mutual

/-- The identifiers that occur in an expression. -/
def Expr.identifiers : Expr → List String
  | .var name => [name]
  | .assign target value => target :: value.identifiers
  | .call callee args => callee :: Expr.identifiersAll args
  | .methodCall receiver method args => receiver.identifiers ++ (method :: Expr.identifiersAll args)
  | .binary _ left right => left.identifiers ++ right.identifiers
  | .not value | .cast _ value | .isType value _ | .wrap _ value | .unwrap _ value => value.identifiers
  | .null | .bool _ | .int _ | .str _ | .this | .wrapNone _ => []

def Expr.identifiersAll : List Expr → List String
  | [] => []
  | e :: es => e.identifiers ++ Expr.identifiersAll es

end

/-- The identifiers that occur in an expression that may be missing. -/
def Expr.identifiersOption : Option Expr → List String
  | none => []
  | some e => e.identifiers

mutual

/-- The identifiers that occur in a statement, at any depth. -/
def Stmt.identifiers : Stmt → List String
  | .block body _ => body.identifiers
  | .ite test yes no _ => test.identifiers ++ (yes.identifiers ++ Stmt.identifiersOption no)
  | .loop test body _ => test.identifiers ++ body.identifiers
  | .attempt body handler cleanup _ =>
    body.identifiers ++ (Block.identifiersOption handler ++ Block.identifiersOption cleanup)
  | .labeled label body _ => label :: body.identifiers
  | .goto label _ => [label]
  | .eval value _ | .raise value _ => value.identifiers
  | .declare name _ init _ => name :: Expr.identifiersOption init
  | .ret value _ | .suspend _ value _ => Expr.identifiersOption value
  | .method decl _ => decl.identifiers
  | .switch discriminant cases _ => discriminant.identifiers ++ Case.identifiersAll cases
  | .exit _ | .next _ => []

def Stmt.identifiersOption : Option Stmt → List String
  | none => []
  | some s => s.identifiers

def Stmt.identifiersAll : List Stmt → List String
  | [] => []
  | s :: ss => s.identifiers ++ Stmt.identifiersAll ss

/-- The identifiers that occur in a block, at any depth. -/
def Block.identifiers : Block → List String
  | ⟨stmts, _⟩ => Stmt.identifiersAll stmts

def Block.identifiersOption : Option Block → List String
  | none => []
  | some b => b.identifiers

def Case.identifiersAll : List Case → List String
  | [] => []
  | ⟨test, body⟩ :: cases =>
    Expr.identifiersOption test ++ (body.identifiers ++ Case.identifiersAll cases)

/-- The identifiers that occur in a method, its own name among them. -/
def Method.identifiers : Method → List String
  | ⟨name, _, _, params, _, body, _⟩ => name :: (params.map Param.name ++ body.identifiers)

end

/-! ## Renaming -/

mutual

def Expr.rename : Expr → Expr
  | .var name => .var (f name)
  | .assign target value => .assign (f target) value.rename
  | .call callee args => .call (f callee) (Expr.renameAll args)
  | .methodCall receiver method args => .methodCall receiver.rename (f method) (Expr.renameAll args)
  | .not value => .not value.rename
  | .binary op left right => .binary op left.rename right.rename
  | .cast ty value => .cast ty value.rename
  | .isType value ty => .isType value.rename ty
  | .wrap ty value => .wrap ty value.rename
  | .unwrap ty value => .unwrap ty value.rename
  | .null => .null
  | .bool b => .bool b
  | .int n => .int n
  | .str s => .str s
  | .this => .this
  | .wrapNone ty => .wrapNone ty

def Expr.renameAll : List Expr → List Expr
  | [] => []
  | e :: es => e.rename :: Expr.renameAll es

end

def Param.rename (p : Param) : Param := { p with name := f p.name }

mutual

/-- The statement with `f x` for each identifier `x`. -/
def Stmt.rename : Stmt → Stmt
  | .block body span => .block body.rename span
  | .ite test yes no span => .ite (test.rename f) yes.rename (Stmt.renameOption no) span
  | .loop test body span => .loop (test.rename f) body.rename span
  | .attempt body handler cleanup span =>
    .attempt body.rename (Block.renameOption handler) (Block.renameOption cleanup) span
  | .labeled label body span => .labeled (f label) body.rename span
  | .goto label span => .goto (f label) span
  | .exit span => .exit span
  | .next span => .next span
  | .eval value span => .eval (value.rename f) span
  | .declare name ty init span => .declare (f name) ty (init.map (Expr.rename f)) span
  | .ret value span => .ret (value.map (Expr.rename f)) span
  | .suspend kind value span => .suspend kind (value.map (Expr.rename f)) span
  | .raise value span => .raise (value.rename f) span
  | .method decl span => .method decl.rename span
  | .switch discriminant cases span => .switch (discriminant.rename f) (Case.renameAll cases) span

def Stmt.renameOption : Option Stmt → Option Stmt
  | none => none
  | some s => some s.rename

def Stmt.renameAll : List Stmt → List Stmt
  | [] => []
  | s :: ss => s.rename :: Stmt.renameAll ss

/-- The block with `f x` for each identifier `x`. -/
def Block.rename : Block → Block
  | ⟨stmts, span⟩ => ⟨Stmt.renameAll stmts, span⟩

def Block.renameOption : Option Block → Option Block
  | none => none
  | some b => some b.rename

def Case.renameAll : List Case → List Case
  | [] => []
  | ⟨test, body⟩ :: cases => ⟨test.map (Expr.rename f), body.rename⟩ :: Case.renameAll cases

def Method.rename : Method → Method
  | ⟨name, visibility, isStatic, params, ret, body, span⟩ =>
    ⟨f name, visibility, isStatic, params.map (Param.rename f), ret, body.rename, span⟩

end

/-- Statements are renamed one by one. -/
theorem Stmt.renameAll_eq_map (ss : List Stmt) : Stmt.renameAll f ss = ss.map (Stmt.rename f) := by
  induction ss with
  | nil => rfl
  | cons s ss ih => rw [Stmt.renameAll, ih, List.map_cons]

/-- The statements of a renamed block. -/
theorem Block.stmts_rename (b : Block) : (b.rename f).stmts = b.stmts.map (Stmt.rename f) := by
  cases b with
  | mk stmts span => exact Stmt.renameAll_eq_map f stmts

theorem Block.span_rename (b : Block) : (b.rename f).span = b.span := by
  cases b
  rfl

theorem Block.rename_mk (stmts : List Stmt) (span : Span) :
    (⟨stmts, span⟩ : Block).rename f = ⟨stmts.map (Stmt.rename f), span⟩ := by
  rw [Block.rename, Stmt.renameAll_eq_map]

/-- Renaming keeps the place in the source. -/
theorem Stmt.span_rename (s : Stmt) : (s.rename f).span = s.span := by
  cases s <;> rfl

/-- A constant or a local stays one, whatever it is called. -/
theorem Expr.isTrivial_rename (e : Expr) : (e.rename f).isTrivial = e.isTrivial := by
  cases e <;> rfl

/-! ## Names that stay -/

section Fixed

variable {f}

mutual

/-- An expression stays as it is if none of its identifiers gets another name. -/
theorem Expr.rename_eq_self (e : Expr) (h : ∀ x ∈ e.identifiers, f x = x) : e.rename f = e := by
  cases e with
  | var name => rw [Expr.rename, h name List.mem_cons_self]
  | assign target value =>
    rw [Expr.identifiers, List.forall_mem_cons] at h
    rw [Expr.rename, h.1, Expr.rename_eq_self value h.2]
  | call callee args =>
    rw [Expr.identifiers, List.forall_mem_cons] at h
    rw [Expr.rename, h.1, Expr.renameAll_eq_self args h.2]
  | methodCall receiver method args =>
    rw [Expr.identifiers, List.forall_mem_append, List.forall_mem_cons] at h
    rw [Expr.rename, Expr.rename_eq_self receiver h.1, h.2.1, Expr.renameAll_eq_self args h.2.2]
  | binary op left right =>
    rw [Expr.identifiers, List.forall_mem_append] at h
    rw [Expr.rename, Expr.rename_eq_self left h.1, Expr.rename_eq_self right h.2]
  | not value | cast ty value | isType value ty | wrap ty value | unwrap ty value =>
    rw [Expr.rename, Expr.rename_eq_self value h]
  | null | bool _ | int _ | str _ | this | wrapNone _ => rfl

theorem Expr.renameAll_eq_self (es : List Expr) (h : ∀ x ∈ Expr.identifiersAll es, f x = x) :
    Expr.renameAll f es = es := by
  cases es with
  | nil => rfl
  | cons e es =>
    rw [Expr.identifiersAll, List.forall_mem_append] at h
    rw [Expr.renameAll, Expr.rename_eq_self e h.1, Expr.renameAll_eq_self es h.2]

end

/-- The same where the expression may be missing. -/
theorem Expr.map_rename_eq_self {e : Option Expr} (h : ∀ x ∈ Expr.identifiersOption e, f x = x) :
    e.map (Expr.rename f) = e := by
  cases e with
  | none => rfl
  | some e => rw [Option.map_some, Expr.rename_eq_self e h]

/-- Parameters are compared by name, for their types are not renamed. -/
theorem Param.map_rename_eq_self {params : List Param} (h : ∀ x ∈ params.map Param.name, f x = x) :
    params.map (Param.rename f) = params := by
  induction params with
  | nil => rfl
  | cons p params ih =>
    rw [List.map_cons, List.forall_mem_cons] at h
    rw [List.map_cons, ih h.2, Param.rename, h.1]

mutual

/-- A statement stays as it is if none of its identifiers gets another name, at any depth. -/
theorem Stmt.rename_eq_self (s : Stmt) (h : ∀ x ∈ s.identifiers, f x = x) : s.rename f = s := by
  cases s with
  | block body span => rw [Stmt.rename, Block.rename_eq_self body h]
  | ite test yes no span =>
    rw [Stmt.identifiers, List.forall_mem_append, List.forall_mem_append] at h
    rw [Stmt.rename, Expr.rename_eq_self test h.1, Stmt.rename_eq_self yes h.2.1,
      Stmt.renameOption_eq_self no h.2.2]
  | loop test body span =>
    rw [Stmt.identifiers, List.forall_mem_append] at h
    rw [Stmt.rename, Expr.rename_eq_self test h.1, Stmt.rename_eq_self body h.2]
  | attempt body handler cleanup span =>
    rw [Stmt.identifiers, List.forall_mem_append, List.forall_mem_append] at h
    rw [Stmt.rename, Block.rename_eq_self body h.1, Block.renameOption_eq_self handler h.2.1,
      Block.renameOption_eq_self cleanup h.2.2]
  | labeled label body span =>
    rw [Stmt.identifiers, List.forall_mem_cons] at h
    rw [Stmt.rename, h.1, Stmt.rename_eq_self body h.2]
  | goto label span => rw [Stmt.rename, h label List.mem_cons_self]
  | eval value span | raise value span => rw [Stmt.rename, Expr.rename_eq_self value h]
  | declare name ty init span =>
    rw [Stmt.identifiers, List.forall_mem_cons] at h
    rw [Stmt.rename, h.1, Expr.map_rename_eq_self h.2]
  | ret value span | suspend kind value span => rw [Stmt.rename, Expr.map_rename_eq_self h]
  | method decl span => rw [Stmt.rename, Method.rename_eq_self decl h]
  | switch discriminant cases span =>
    rw [Stmt.identifiers, List.forall_mem_append] at h
    rw [Stmt.rename, Expr.rename_eq_self discriminant h.1, Case.renameAll_eq_self cases h.2]
  | exit _ | next _ => rfl

theorem Stmt.renameOption_eq_self (s : Option Stmt) (h : ∀ x ∈ Stmt.identifiersOption s, f x = x) :
    Stmt.renameOption f s = s := by
  cases s with
  | none => rfl
  | some s => rw [Stmt.renameOption, Stmt.rename_eq_self s h]

theorem Stmt.renameAll_eq_self (ss : List Stmt) (h : ∀ x ∈ Stmt.identifiersAll ss, f x = x) :
    Stmt.renameAll f ss = ss := by
  cases ss with
  | nil => rfl
  | cons s ss =>
    rw [Stmt.identifiersAll, List.forall_mem_append] at h
    rw [Stmt.renameAll, Stmt.rename_eq_self s h.1, Stmt.renameAll_eq_self ss h.2]

/-- **Where no identifier changes, nothing does.** -/
theorem Block.rename_eq_self (b : Block) (h : ∀ x ∈ b.identifiers, f x = x) : b.rename f = b := by
  cases b with
  | mk stmts span => rw [Block.rename, Stmt.renameAll_eq_self stmts h]

theorem Block.renameOption_eq_self (b : Option Block) (h : ∀ x ∈ Block.identifiersOption b, f x = x) :
    Block.renameOption f b = b := by
  cases b with
  | none => rfl
  | some b => rw [Block.renameOption, Block.rename_eq_self b h]

theorem Case.renameAll_eq_self (cases : List Case) (h : ∀ x ∈ Case.identifiersAll cases, f x = x) :
    Case.renameAll f cases = cases := by
  cases cases with
  | nil => rfl
  | cons case rest =>
    cases case with
    | mk test body =>
      rw [Case.identifiersAll, List.forall_mem_append, List.forall_mem_append] at h
      rw [Case.renameAll, Expr.map_rename_eq_self h.1, Block.rename_eq_self body h.2.1,
        Case.renameAll_eq_self rest h.2.2]

/-- A nested method is renamed with its parameters and its body, so all of them count. -/
theorem Method.rename_eq_self (m : Method) (h : ∀ x ∈ m.identifiers, f x = x) : m.rename f = m := by
  cases m with
  | mk name visibility isStatic params ret body span =>
    rw [Method.identifiers, List.forall_mem_cons, List.forall_mem_append] at h
    rw [Method.rename, h.1, Param.map_rename_eq_self h.2.1, Block.rename_eq_self body h.2.2]

end

end Fixed

/-! ## Suspensions -/

mutual

/-- Renaming neither adds nor removes a suspension. -/
theorem Stmt.suspends_rename (s : Stmt) : (s.rename f).suspends = s.suspends := by
  cases s with
  | block body span => rw [Stmt.rename, Stmt.suspends, Stmt.suspends, Block.suspends_rename body]
  | ite test yes no span =>
    rw [Stmt.rename, Stmt.suspends, Stmt.suspends, Stmt.suspends_rename yes,
      Stmt.suspendsOption_rename no]
  | loop test body span => rw [Stmt.rename, Stmt.suspends, Stmt.suspends, Stmt.suspends_rename body]
  | attempt body handler cleanup span =>
    rw [Stmt.rename, Stmt.suspends, Stmt.suspends, Block.suspends_rename body,
      Block.suspendsOption_rename handler, Block.suspendsOption_rename cleanup]
  | labeled label body span =>
    rw [Stmt.rename, Stmt.suspends, Stmt.suspends, Stmt.suspends_rename body]
  | switch discriminant cases span =>
    rw [Stmt.rename, Stmt.suspends, Stmt.suspends, Case.suspendsAny_rename cases]
  | goto _ _ | exit _ | next _ | eval _ _ | declare _ _ _ _ | ret _ _ | suspend _ _ _ | raise _ _
  | method _ _ => rfl

theorem Stmt.suspendsOption_rename (s : Option Stmt) :
    Stmt.suspendsOption (Stmt.renameOption f s) = Stmt.suspendsOption s := by
  cases s with
  | none => rfl
  | some s => rw [Stmt.renameOption, Stmt.suspendsOption, Stmt.suspendsOption, Stmt.suspends_rename s]

theorem Stmt.suspendsAny_rename (ss : List Stmt) :
    Stmt.suspendsAny (Stmt.renameAll f ss) = Stmt.suspendsAny ss := by
  cases ss with
  | nil => rfl
  | cons s ss =>
    rw [Stmt.renameAll, Stmt.suspendsAny, Stmt.suspendsAny, Stmt.suspends_rename s,
      Stmt.suspendsAny_rename ss]

/-- A renamed body suspends if and only if the body does. -/
theorem Block.suspends_rename (b : Block) : (b.rename f).suspends = b.suspends := by
  cases b with
  | mk stmts span => rw [Block.rename, Block.suspends, Block.suspends, Stmt.suspendsAny_rename stmts]

theorem Block.suspendsOption_rename (b : Option Block) :
    Block.suspendsOption (Block.renameOption f b) = Block.suspendsOption b := by
  cases b with
  | none => rfl
  | some b =>
    rw [Block.renameOption, Block.suspendsOption, Block.suspendsOption, Block.suspends_rename b]

theorem Case.suspendsAny_rename (cases : List Case) :
    Case.suspendsAny (Case.renameAll f cases) = Case.suspendsAny cases := by
  cases cases with
  | nil => rfl
  | cons case rest =>
    cases case with
    | mk test body =>
      rw [Case.renameAll, Case.suspendsAny, Case.suspendsAny, Block.suspends_rename body,
        Case.suspendsAny_rename rest]

end

/-! ## Normalizing -/

/-- A branch gets its braces before or after it is renamed. -/
theorem Stmt.rename_asBlock (s : Stmt) : s.asBlock.rename f = (s.rename f).asBlock := by
  cases s <;> rfl

mutual

/-- Normalizing looks at no name, so it makes no difference whether names are changed first. -/
theorem Stmt.rename_normalize (s : Stmt) : s.normalize.rename f = (s.rename f).normalize := by
  cases s with
  | block body span =>
    rw [Stmt.rename, Stmt.normalize, Stmt.normalize, Stmt.rename, Block.rename_normalize body]
  | ite test yes no span =>
    rw [Stmt.rename, Stmt.normalize, Stmt.normalize, Stmt.rename, Stmt.rename_asBlock,
      Stmt.rename_normalize yes, Stmt.rename_normalizeOption no]
  | loop test body span =>
    rw [Stmt.rename, Stmt.normalize, Stmt.normalize, Stmt.rename, Stmt.rename_asBlock,
      Stmt.rename_normalize body]
  | attempt body handler cleanup span =>
    rw [Stmt.rename, Stmt.normalize, Stmt.normalize, Stmt.rename, Block.rename_normalize body,
      Block.rename_normalizeOption handler, Block.rename_normalizeOption cleanup]
  | labeled label body span =>
    rw [Stmt.rename, Stmt.normalize, Stmt.normalize, Stmt.rename, Stmt.rename_asBlock,
      Stmt.rename_normalize body]
  | switch discriminant cases span =>
    rw [Stmt.rename, Stmt.normalize, Stmt.normalize, Stmt.rename, Case.rename_normalizeAll cases]
  | goto _ _ | exit _ | next _ | eval _ _ | declare _ _ _ _ | ret _ _ | suspend _ _ _ | raise _ _
  | method _ _ => simp only [Stmt.rename, Stmt.normalize]

theorem Stmt.rename_normalizeOption (s : Option Stmt) :
    Stmt.renameOption f (Stmt.normalizeOption s) = Stmt.normalizeOption (Stmt.renameOption f s) := by
  cases s with
  | none => rw [Stmt.renameOption, Stmt.normalizeOption, Stmt.renameOption]
  | some s =>
    rw [Stmt.renameOption, Stmt.normalizeOption, Stmt.normalizeOption, Stmt.renameOption,
      Stmt.rename_asBlock, Stmt.rename_normalize s]

theorem Stmt.rename_normalizeAll (ss : List Stmt) :
    Stmt.renameAll f (Stmt.normalizeAll ss) = Stmt.normalizeAll (Stmt.renameAll f ss) := by
  cases ss with
  | nil => rw [Stmt.renameAll, Stmt.normalizeAll, Stmt.renameAll]
  | cons s ss =>
    rw [Stmt.renameAll, Stmt.normalizeAll, Stmt.normalizeAll, Stmt.renameAll, Stmt.rename_normalize s,
      Stmt.rename_normalizeAll ss]

/-- **Renaming and normalizing a body commute.** -/
theorem Block.rename_normalize (b : Block) : b.normalize.rename f = (b.rename f).normalize := by
  cases b with
  | mk stmts span =>
    rw [Block.rename, Block.normalize, Block.normalize, Block.rename, Stmt.rename_normalizeAll stmts]

theorem Block.rename_normalizeOption (b : Option Block) :
    Block.renameOption f (Block.normalizeOption b) = Block.normalizeOption (Block.renameOption f b) := by
  cases b with
  | none => rw [Block.renameOption, Block.normalizeOption, Block.renameOption]
  | some b =>
    rw [Block.renameOption, Block.normalizeOption, Block.normalizeOption, Block.renameOption,
      Block.rename_normalize b]

theorem Case.rename_normalizeAll (cases : List Case) :
    Case.renameAll f (Case.normalizeAll cases) = Case.normalizeAll (Case.renameAll f cases) := by
  cases cases with
  | nil => rw [Case.renameAll, Case.normalizeAll, Case.renameAll]
  | cons case rest =>
    cases case with
    | mk test body =>
      rw [Case.renameAll, Case.normalizeAll, Case.normalizeAll, Case.renameAll,
        Block.rename_normalize body, Case.rename_normalizeAll rest]

end

end Lowering
