import Lowering.Proofs.Tree.Sites
import Lowering.Tree.Declared
import Lowering.Tree.Normalize

/-!
# What a method declares

`Method.Declares` says what a declared name of a method is, one rule for each way to declare one.
The list of declared names holds exactly these (`Method.mem_declared`), so reserving the list reserves
them all.

Making blocks of branches and bodies does not change the list.
-/

namespace Lowering

/-! ## Declarations, one by one -/

/-- The method declares the name, itself or in its body at any depth. -/
inductive Method.Declares (name : String) : Method → Prop where
  | self {m : Method} (h : m.name = name) : Declares name m
  | param {m : Method} {p : Param} (h : p ∈ m.params) (hp : p.name = name) : Declares name m
  | label {m : Method} {body : Stmt} {span : Span}
    (h : .labeled name body span ∈ Stmt.partsAll m.body.stmts) : Declares name m
  | localVar {m : Method} {ty : TargetType} {init : Option Expr} {span : Span}
    (h : .declare name ty init span ∈ Stmt.partsAll m.body.stmts) : Declares name m
  | nested {m decl : Method} {span : Span} (h : .method decl span ∈ Stmt.partsAll m.body.stmts)
    (hd : Declares name decl) : Declares name m

/-- The names a statement declares itself, outside the statements inside it. A nested method counts as
a whole. -/
def Stmt.declaredHere : Stmt → List String
  | .labeled label _ _ => [label]
  | .declare name _ _ _ => [name]
  | .method decl _ => decl.declared
  | _ => []

/-! ## The list -/

/-- Names are listed in the order of the statements. -/
theorem Stmt.declaredAll_append (ss ts : List Stmt) :
    Stmt.declaredAll (ss ++ ts) = Stmt.declaredAll ss ++ Stmt.declaredAll ts := by
  induction ss with
  | nil => rfl
  | cons s ss ih => rw [List.cons_append, Stmt.declaredAll, Stmt.declaredAll, ih, List.append_assoc]

@[simp] theorem Stmt.declaredAll_nil : Stmt.declaredAll [] = [] := rfl

@[simp] theorem Stmt.declaredAll_cons (s : Stmt) (ss : List Stmt) :
    Stmt.declaredAll (s :: ss) = s.declared ++ Stmt.declaredAll ss := by
  rw [Stmt.declaredAll]

mutual

/-- A statement declares what its parts declare, in their order. -/
theorem Stmt.declared_eq (s : Stmt) : s.declared = s.parts.flatMap Stmt.declaredHere := by
  cases s with
  | block b span =>
    rw [Stmt.declared, Stmt.parts_block, List.flatMap_cons, Block.declared_eq b]
    rfl
  | ite test yes no span =>
    rw [Stmt.declared, Stmt.parts_ite, List.flatMap_cons, List.flatMap_append, Stmt.declared_eq yes,
      Stmt.declaredOption_eq no]
    rfl
  | loop test body span =>
    rw [Stmt.declared, Stmt.parts_loop, List.flatMap_cons, Stmt.declared_eq body]
    rfl
  | attempt body handler cleanup span =>
    rw [Stmt.declared, Stmt.parts_attempt, List.flatMap_cons, List.flatMap_append, List.flatMap_append,
      Block.declared_eq body, Block.declaredOption_eq handler, Block.declaredOption_eq cleanup,
      List.append_assoc]
    rfl
  | labeled label body span =>
    rw [Stmt.declared, Stmt.parts_labeled, List.flatMap_cons, Stmt.declared_eq body]
    rfl
  | switch discriminant cases span =>
    rw [Stmt.declared, Stmt.parts_switch, List.flatMap_cons, Case.declaredAll_eq cases]
    rfl
  | method decl span =>
    rw [Stmt.declared]
    exact (List.append_nil _).symm
  | declare _ _ _ _ | goto _ _ | exit _ | next _ | eval _ _ | ret _ _ | suspend _ _ _ | raise _ _ => rfl

theorem Stmt.declaredOption_eq (s : Option Stmt) :
    Stmt.declaredOption s = (s.toList.flatMap Stmt.parts).flatMap Stmt.declaredHere := by
  cases s with
  | none => rfl
  | some s =>
    rw [Stmt.declaredOption, Stmt.declared_eq s, Option.toList_some, List.flatMap_singleton]

theorem Stmt.declaredAll_eq (ss : List Stmt) :
    Stmt.declaredAll ss = (Stmt.partsAll ss).flatMap Stmt.declaredHere := by
  cases ss with
  | nil => rfl
  | cons s ss =>
    rw [Stmt.declaredAll, Stmt.partsAll_cons, List.flatMap_append, Stmt.declared_eq s,
      Stmt.declaredAll_eq ss]

/-- A body declares what its parts declare, one by one. -/
theorem Block.declared_eq (b : Block) :
    b.declared = (Stmt.partsAll b.stmts).flatMap Stmt.declaredHere := by
  cases b with
  | mk stmts span => rw [Block.declared, Stmt.declaredAll_eq stmts]

theorem Block.declaredOption_eq (b : Option Block) :
    Block.declaredOption b =
      (b.toList.flatMap fun b => Stmt.partsAll b.stmts).flatMap Stmt.declaredHere := by
  cases b with
  | none => rfl
  | some b =>
    rw [Block.declaredOption, Block.declared_eq b, Option.toList_some, List.flatMap_singleton]

theorem Case.declaredAll_eq (cases : List Case) :
    Case.declaredAll cases =
      (cases.flatMap fun case => Stmt.partsAll case.body.stmts).flatMap Stmt.declaredHere := by
  cases cases with
  | nil => rfl
  | cons case cases =>
    cases case with
    | mk test body =>
      rw [Case.declaredAll, List.flatMap_cons, List.flatMap_append, Block.declared_eq body,
        Case.declaredAll_eq cases]

end

/-- A method declares its own name, its parameters, and what the parts of its body declare. -/
theorem Method.declared_eq (m : Method) :
    m.declared = m.name :: (m.params.map Param.name ++
      (Stmt.partsAll m.body.stmts).flatMap Stmt.declaredHere) := by
  cases m with
  | mk name visibility isStatic params ret body span =>
    rw [Method.declared, Block.declared_eq body, List.cons_append]

/-- What a statement of the body declares is declared by the method. -/
theorem Method.declared_of_mem_parts {m : Method} {p : Stmt} (h : p ∈ Stmt.partsAll m.body.stmts)
    {name : String} (hn : name ∈ p.declaredHere) : name ∈ m.declared := by
  rw [m.declared_eq]
  refine List.mem_cons_of_mem _ (List.mem_append_right _ ?_)
  exact List.mem_flatMap.mpr ⟨p, h, hn⟩

/-- **The list is complete**: every declaration is in it. -/
theorem Method.Declares.mem {name : String} {m : Method} (h : m.Declares name) :
    name ∈ m.declared := by
  induction h with
  | @self m h =>
    rw [m.declared_eq, h]
    exact List.mem_cons_self
  | @param m p hp hn =>
    rw [m.declared_eq]
    refine List.mem_cons_of_mem _ (List.mem_append_left _ ?_)
    exact List.mem_map.mpr ⟨p, hp, hn⟩
  | label h => exact Method.declared_of_mem_parts h (List.mem_singleton_self _)
  | localVar h => exact Method.declared_of_mem_parts h (List.mem_singleton_self _)
  | nested h _ ih => exact Method.declared_of_mem_parts h ih

-- The other way round the nested methods matter, which are no parts of the body around them, so the
-- induction is on the tree.
mutual

/-- A nested method has nothing on its list that it does not declare. -/
theorem Stmt.declares_nested (s : Stmt) {decl : Method} {span : Span}
    (h : .method decl span ∈ s.parts) : ∀ name ∈ decl.declared, decl.Declares name := by
  cases s with
  | block b span =>
    rw [Stmt.parts_block, List.mem_cons] at h
    exact Block.declares_nested b (h.resolve_left nofun)
  | ite test yes no span =>
    rw [Stmt.parts_ite, List.mem_cons, List.mem_append] at h
    rcases h.resolve_left nofun with h | h
    · exact Stmt.declares_nested yes h
    · exact Stmt.declares_nestedOption no h
  | loop test body span =>
    rw [Stmt.parts_loop, List.mem_cons] at h
    exact Stmt.declares_nested body (h.resolve_left nofun)
  | attempt body handler cleanup span =>
    rw [Stmt.parts_attempt, List.mem_cons, List.mem_append, List.mem_append] at h
    rcases h.resolve_left nofun with h | h | h
    · exact Block.declares_nested body h
    · exact Block.declares_nestedOption handler h
    · exact Block.declares_nestedOption cleanup h
  | labeled label body span =>
    rw [Stmt.parts_labeled, List.mem_cons] at h
    exact Stmt.declares_nested body (h.resolve_left nofun)
  | switch discriminant cases span =>
    rw [Stmt.parts_switch, List.mem_cons] at h
    exact Case.declares_nestedAll cases (h.resolve_left nofun)
  | method decl' span' =>
    cases List.mem_singleton.mp h
    exact Method.declares_of_mem decl
  | declare _ _ _ _ | goto _ _ | exit _ | next _ | eval _ _ | ret _ _ | suspend _ _ _ | raise _ _ =>
    cases List.mem_singleton.mp h

theorem Stmt.declares_nestedOption (s : Option Stmt) {decl : Method} {span : Span}
    (h : .method decl span ∈ s.toList.flatMap Stmt.parts) :
    ∀ name ∈ decl.declared, decl.Declares name := by
  cases s with
  | none => cases h
  | some s =>
    rw [Option.toList_some, List.flatMap_singleton] at h
    exact Stmt.declares_nested s h

theorem Stmt.declares_nestedAll (ss : List Stmt) {decl : Method} {span : Span}
    (h : .method decl span ∈ Stmt.partsAll ss) : ∀ name ∈ decl.declared, decl.Declares name := by
  cases ss with
  | nil => cases h
  | cons s ss =>
    rw [Stmt.partsAll_cons, List.mem_append] at h
    rcases h with h | h
    · exact Stmt.declares_nested s h
    · exact Stmt.declares_nestedAll ss h

theorem Block.declares_nested (b : Block) {decl : Method} {span : Span}
    (h : .method decl span ∈ Stmt.partsAll b.stmts) : ∀ name ∈ decl.declared, decl.Declares name := by
  cases b with
  | mk stmts span => exact Stmt.declares_nestedAll stmts h

theorem Block.declares_nestedOption (b : Option Block) {decl : Method} {span : Span}
    (h : .method decl span ∈ b.toList.flatMap fun b => Stmt.partsAll b.stmts) :
    ∀ name ∈ decl.declared, decl.Declares name := by
  cases b with
  | none => cases h
  | some b =>
    rw [Option.toList_some, List.flatMap_singleton] at h
    exact Block.declares_nested b h

theorem Case.declares_nestedAll (cases : List Case) {decl : Method} {span : Span}
    (h : .method decl span ∈ cases.flatMap fun case => Stmt.partsAll case.body.stmts) :
    ∀ name ∈ decl.declared, decl.Declares name := by
  cases cases with
  | nil => cases h
  | cons case cases =>
    cases case with
    | mk test body =>
      rw [List.flatMap_cons, List.mem_append] at h
      rcases h with h | h
      · exact Block.declares_nested body h
      · exact Case.declares_nestedAll cases h

/-- **The list is sound**: every name in it is declared. -/
theorem Method.declares_of_mem (m : Method) : ∀ name ∈ m.declared, m.Declares name := by
  cases m with
  | mk name visibility isStatic params ret body span =>
    intro n hn
    rw [Method.declared_eq, List.mem_cons, List.mem_append, List.mem_flatMap] at hn
    rcases hn with hn | hn | ⟨p, hp, hn⟩
    · exact .self hn.symm
    · obtain ⟨q, hq, hn⟩ := List.mem_map.mp hn
      exact .param hq hn
    · cases p with
      | labeled label s span =>
        cases List.mem_singleton.mp hn
        exact .label hp
      | declare x ty init span =>
        cases List.mem_singleton.mp hn
        exact .localVar hp
      | method decl span => exact .nested hp (Block.declares_nested body hp n hn)
      | _ => cases hn

end

/-- **The declared names of a method are the names that it declares.** -/
theorem Method.mem_declared {m : Method} {name : String} : name ∈ m.declared ↔ m.Declares name :=
  ⟨Method.declares_of_mem m name, Method.Declares.mem⟩

/-! ## Normalized bodies -/

/-- Braces declare nothing. -/
theorem Stmt.declared_asBlock (s : Stmt) : s.asBlock.declared = s.declared := by
  cases s with
  | block b span => rfl
  | _ => exact List.append_nil _

mutual

/-- Normalizing adds only blocks, so it declares nothing and loses no declaration. -/
theorem Stmt.declared_normalize (s : Stmt) : s.normalize.declared = s.declared := by
  cases s with
  | block b span => rw [Stmt.normalize, Stmt.declared, Stmt.declared, Block.declared_normalize b]
  | ite test yes no span =>
    rw [Stmt.normalize, Stmt.declared, Stmt.declared, Stmt.declared_asBlock, Stmt.declared_normalize yes,
      Stmt.declared_normalizeOption no]
  | loop test body span =>
    rw [Stmt.normalize, Stmt.declared, Stmt.declared, Stmt.declared_asBlock, Stmt.declared_normalize body]
  | attempt body handler cleanup span =>
    rw [Stmt.normalize, Stmt.declared, Stmt.declared, Block.declared_normalize body,
      Block.declared_normalizeOption handler, Block.declared_normalizeOption cleanup]
  | labeled label body span =>
    rw [Stmt.normalize, Stmt.declared, Stmt.declared, Stmt.declared_asBlock, Stmt.declared_normalize body]
  | switch discriminant cases span =>
    rw [Stmt.normalize, Stmt.declared, Stmt.declared, Case.declared_normalizeAll cases]
  | method _ _ | declare _ _ _ _ | goto _ _ | exit _ | next _ | eval _ _ | ret _ _ | suspend _ _ _
  | raise _ _ => rw [Stmt.normalize]

theorem Stmt.declared_normalizeOption (s : Option Stmt) :
    Stmt.declaredOption (Stmt.normalizeOption s) = Stmt.declaredOption s := by
  cases s with
  | none => rw [Stmt.normalizeOption]
  | some s =>
    rw [Stmt.normalizeOption, Stmt.declaredOption, Stmt.declaredOption, Stmt.declared_asBlock,
      Stmt.declared_normalize s]

theorem Stmt.declared_normalizeAll (ss : List Stmt) :
    Stmt.declaredAll (Stmt.normalizeAll ss) = Stmt.declaredAll ss := by
  cases ss with
  | nil => rw [Stmt.normalizeAll]
  | cons s ss =>
    rw [Stmt.normalizeAll, Stmt.declaredAll, Stmt.declaredAll, Stmt.declared_normalize s,
      Stmt.declared_normalizeAll ss]

/-- A normalized body declares the names of the body, in their order. -/
theorem Block.declared_normalize (b : Block) : b.normalize.declared = b.declared := by
  cases b with
  | mk stmts span =>
    rw [Block.normalize, Block.declared, Block.declared, Stmt.declared_normalizeAll stmts]

theorem Block.declared_normalizeOption (b : Option Block) :
    Block.declaredOption (Block.normalizeOption b) = Block.declaredOption b := by
  cases b with
  | none => rw [Block.normalizeOption]
  | some b =>
    rw [Block.normalizeOption, Block.declaredOption, Block.declaredOption, Block.declared_normalize b]

theorem Case.declared_normalizeAll (cases : List Case) :
    Case.declaredAll (Case.normalizeAll cases) = Case.declaredAll cases := by
  cases cases with
  | nil => rw [Case.normalizeAll]
  | cons case cases =>
    cases case with
    | mk test body =>
      rw [Case.normalizeAll, Case.declaredAll, Case.declaredAll, Block.declared_normalize body,
        Case.declared_normalizeAll cases]

end

end Lowering
