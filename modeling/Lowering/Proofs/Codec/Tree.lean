import Lowering.Codec.Tree
import Lowering.Proofs.Codec.Types

/-!
# Bodies out of JSON

Decoding an expression, a statement or a method gets back what was encoded. A statement is shown from
its kind (`Stmt.decodes_withSpan`), and kinds, like expressions, constructor by constructor.
-/

namespace Lowering

open Json (Decodes fields?_bind list?)

/-! ## Small enumerations -/

/-- Each operator has a word of its own. -/
theorem BinaryOp.decodes (op : BinaryOp) : Decodes BinaryOp.decode op.encode op := by
  cases op <;> exact .atom trivial rfl fun _ => rfl

theorem Visibility.decodes (v : Visibility) : Decodes Visibility.decode v.encode v := by
  cases v <;> exact .atom trivial rfl fun _ => rfl

theorem SuspendKind.decodes (k : SuspendKind) : Decodes SuspendKind.decode k.encode k := by
  cases k <;> exact .atom trivial rfl fun _ => rfl

/-! ## Expressions -/

/-- Writing arguments one by one is writing a list. -/
theorem Expr.encodeAll_eq_map (es : List Expr) : Expr.encodeAll es = es.map Expr.encode := by
  induction es with
  | nil => rfl
  | cons e es ih => rw [Expr.encodeAll, ih, List.map_cons]

mutual

/-- **An expression is read back from what is written of it.** Constants without data are plain words,
all others are objects with one key. -/
theorem Expr.decodes (e : Expr) : Decodes Expr.decode e.encode e := by
  -- `atom` is for a bare name, `tagged` for a name with one payload, `variant` for a name with fields.
  cases e with
  | null | this =>
    refine .atom trivial rfl fun d => ?_
    rw [Expr.encode, Expr.decode]
    rfl
  | bool b | str s | var name =>
    refine .tagged trivial fun n _ => ?_
    rw [Json.tagged, Expr.decode]
    rfl
  | int k =>
    refine .tagged trivial fun n _ => ?_
    rw [Json.tagged, Expr.decode, Json.int64?_toInt]
    rfl
  | assign target value =>
    have hvalue := Expr.decodes value
    refine .variant (by simp [hvalue.plain]) fun n hn => ?_
    simp only [List.forall_mem_cons] at hn
    rw [Json.variant, Expr.decode]
    refine fields?_bind rfl (by decide) ?_
    simp [Json.Fields.required, hvalue.decode n hn.2.1]
  | call callee args =>
    have hargs := Decodes.list (Expr.decodesAll args)
    rw [← Expr.encodeAll_eq_map] at hargs
    refine .variant (by simp [hargs.plain]) fun n hn => ?_
    simp only [List.forall_mem_cons] at hn
    rw [Json.variant, Expr.decode]
    refine fields?_bind rfl (by decide) ?_
    simp [Json.Fields.required, hargs.decode n hn.2.1]
  | methodCall receiver method args =>
    have hreceiver := Expr.decodes receiver
    have hargs := Decodes.list (Expr.decodesAll args)
    rw [← Expr.encodeAll_eq_map] at hargs
    refine .variant (by simp [hreceiver.plain, hargs.plain]) fun n hn => ?_
    simp only [List.forall_mem_cons] at hn
    rw [Json.variant, Expr.decode]
    refine fields?_bind rfl (by decide) ?_
    simp [Json.Fields.required, hreceiver.decode n hn.1, hargs.decode n hn.2.2.1]
  | not value =>
    have hvalue := Expr.decodes value
    refine .tagged hvalue.plain fun n hn => ?_
    rw [Json.tagged, Expr.decode, hvalue.decode n hn]
    rfl
  | binary op left right =>
    have hop := op.decodes
    have hleft := Expr.decodes left
    have hright := Expr.decodes right
    refine .variant (by simp [hop.plain, hleft.plain, hright.plain]) fun n hn => ?_
    simp only [List.forall_mem_cons] at hn
    rw [Json.variant, Expr.decode]
    refine fields?_bind rfl (by decide) ?_
    simp [Json.Fields.required, hop.decode n hn.1, hleft.decode n hn.2.1, hright.decode n hn.2.2.1]
  | cast ty value | wrap ty value | unwrap ty value =>
    have hty := ty.decodes
    have hvalue := Expr.decodes value
    refine .variant (by simp [hty.plain, hvalue.plain]) fun n hn => ?_
    simp only [List.forall_mem_cons] at hn
    rw [Json.variant, Expr.decode]
    refine fields?_bind rfl (by decide) ?_
    simp [Json.Fields.required, hty.decode n hn.1, hvalue.decode n hn.2.1]
  | isType value ty =>
    have hvalue := Expr.decodes value
    have hty := ty.decodes
    refine .variant (by simp [hty.plain, hvalue.plain]) fun n hn => ?_
    simp only [List.forall_mem_cons] at hn
    rw [Json.variant, Expr.decode]
    refine fields?_bind rfl (by decide) ?_
    simp [Json.Fields.required, hvalue.decode n hn.1, hty.decode n hn.2.1]
  | wrapNone ty =>
    have hty := ty.decodes
    refine .tagged hty.plain fun n hn => ?_
    rw [Json.tagged, Expr.decode, hty.decode n hn]
    rfl

theorem Expr.decodesAll (es : List Expr) : ∀ e ∈ es, Decodes Expr.decode e.encode e := by
  cases es with
  | nil => exact List.forall_mem_nil _
  | cons e es => exact List.forall_mem_cons.mpr ⟨Expr.decodes e, Expr.decodesAll es⟩

end

/-! ## Statements -/

/-- A parameter is an object with a name and a type. -/
theorem Param.decodes (p : Param) : Decodes Param.decode p.encode p := by
  have hty := p.ty.decodes
  refine .record (by simp [hty.plain]) fun n hn => ?_
  simp only [List.forall_mem_cons] at hn
  refine fields?_bind rfl (by decide) ?_
  simp [Json.Fields.required, hty.decode n hn.2.1]

/-- A statement can be decoded if its kind can. -/
theorem Stmt.decodes_withSpan {s : Stmt} {kind : Json} {span : Span}
    (h : Decodes (Stmt.decodeKind · span) kind s) : Decodes Stmt.decode (.withSpan kind span) s := by
  have hspan := span.decodes
  refine .record (by simp [h.plain, hspan.plain]) fun n hn => ?_
  simp only [List.forall_mem_cons] at hn
  rw [Stmt.decode]
  refine fields?_bind rfl (by decide) ?_
  simp [Json.Fields.defaulted, hspan.decode n hn.2.1, h.decode n hn.1]

theorem Stmt.encodeAll_eq_map (ss : List Stmt) : Stmt.encodeAll ss = ss.map Stmt.encode := by
  induction ss with
  | nil => rw [Stmt.encodeAll, List.map_nil]
  | cons s ss ih => rw [Stmt.encodeAll, ih, List.map_cons]

/-- A branch that is missing is written as `null`. -/
theorem Stmt.encodeOption_eq (s : Option Stmt) : Stmt.encodeOption s = .ofOption Stmt.encode s := by
  cases s <;> rw [Stmt.encodeOption] <;> rfl

theorem Block.encodeOption_eq (b : Option Block) : Block.encodeOption b = .ofOption Block.encode b := by
  cases b <;> rw [Block.encodeOption] <;> rfl

def Case.encode (c : Case) : Json :=
  .obj [("test", .ofOption Expr.encode c.test), ("body", c.body.encode)]

theorem Case.encodeAll_eq_map (cases : List Case) : Case.encodeAll cases = cases.map Case.encode := by
  induction cases with
  | nil => rw [Case.encodeAll, List.map_nil]
  | cons c cases ih =>
    obtain ⟨test, body⟩ := c
    rw [Case.encodeAll, ih, List.map_cons, Case.encode]

mutual

/-- **A statement is read back from what is written of it**, with its place in the source. -/
theorem Stmt.decodes (s : Stmt) : Decodes Stmt.decode s.encode s := by
  cases s with
  | block body span =>
    have hbody := Block.decodes body
    rw [Stmt.encode]
    refine Stmt.decodes_withSpan (.tagged hbody.plain fun n hn => ?_)
    rw [Json.tagged, Stmt.decodeKind, hbody.decode n hn]
    rfl
  | ite test yes no span =>
    have htest := test.decodes
    have hyes := Stmt.decodes yes
    have hno := Stmt.decodesOption no
    rw [Stmt.encode, Stmt.encodeOption_eq]
    refine Stmt.decodes_withSpan (.variant ?_ fun n hn => ?_)
    · simp [htest.plain, hyes.plain, Json.Plain.ofOption hno]
    · simp only [List.forall_mem_cons] at hn
      rw [Json.variant, Stmt.decodeKind]
      refine fields?_bind rfl (by decide) ?_
      simp [Json.Fields.required, Json.Fields.optional, htest.decode n hn.1, hyes.decode n hn.2.1,
        Json.option?_ofOption hno hn.2.2.1]
  | loop test body span =>
    have htest := test.decodes
    have hbody := Stmt.decodes body
    rw [Stmt.encode]
    refine Stmt.decodes_withSpan (.variant (by simp [htest.plain, hbody.plain]) fun n hn => ?_)
    simp only [List.forall_mem_cons] at hn
    rw [Json.variant, Stmt.decodeKind]
    refine fields?_bind rfl (by decide) ?_
    simp [Json.Fields.required, htest.decode n hn.1, hbody.decode n hn.2.1]
  | attempt body handler cleanup span =>
    have hbody := Block.decodes body
    have hhandler := Block.decodesOption handler
    have hcleanup := Block.decodesOption cleanup
    rw [Stmt.encode, Block.encodeOption_eq, Block.encodeOption_eq]
    refine Stmt.decodes_withSpan (.variant ?_ fun n hn => ?_)
    · simp [hbody.plain, Json.Plain.ofOption hhandler, Json.Plain.ofOption hcleanup]
    · simp only [List.forall_mem_cons] at hn
      rw [Json.variant, Stmt.decodeKind]
      refine fields?_bind rfl (by decide) ?_
      simp [Json.Fields.required, Json.Fields.optional, hbody.decode n hn.1,
        Json.option?_ofOption hhandler hn.2.1, Json.option?_ofOption hcleanup hn.2.2.1]
  | labeled label body span =>
    have hbody := Stmt.decodes body
    rw [Stmt.encode]
    refine Stmt.decodes_withSpan (.variant (by simp [hbody.plain]) fun n hn => ?_)
    simp only [List.forall_mem_cons] at hn
    rw [Json.variant, Stmt.decodeKind]
    refine fields?_bind rfl (by decide) ?_
    simp [Json.Fields.required, hbody.decode n hn.2.1]
  | goto label span =>
    rw [Stmt.encode]
    refine Stmt.decodes_withSpan (.tagged trivial fun n _ => ?_)
    rw [Json.tagged, Stmt.decodeKind]
    rfl
  | exit span | next span =>
    rw [Stmt.encode]
    refine Stmt.decodes_withSpan (.atom trivial rfl fun d => ?_)
    rw [Stmt.decodeKind]
    rfl
  | eval value span | raise value span =>
    have hvalue := value.decodes
    rw [Stmt.encode]
    refine Stmt.decodes_withSpan (.tagged hvalue.plain fun n hn => ?_)
    rw [Json.tagged, Stmt.decodeKind, hvalue.decode n hn]
    rfl
  | declare name ty init span =>
    have hty := ty.decodes
    have hinit := fun e (_ : e ∈ init) => e.decodes
    rw [Stmt.encode]
    refine Stmt.decodes_withSpan (.variant (by simp [hty.plain, Json.Plain.ofOption hinit]) fun n hn => ?_)
    simp only [List.forall_mem_cons] at hn
    rw [Json.variant, Stmt.decodeKind]
    refine fields?_bind rfl (by decide) ?_
    simp [Json.Fields.required, Json.Fields.optional, hty.decode n hn.2.1,
      Json.option?_ofOption hinit hn.2.2.1]
  | ret value span =>
    have hvalue := fun e (_ : e ∈ value) => e.decodes
    rw [Stmt.encode]
    refine Stmt.decodes_withSpan (.tagged (Json.Plain.ofOption hvalue) fun n hn => ?_)
    rw [Json.tagged, Stmt.decodeKind, Json.option?_ofOption hvalue hn]
    rfl
  | suspend kind value span =>
    have hkind := kind.decodes
    have hvalue := fun e (_ : e ∈ value) => e.decodes
    rw [Stmt.encode]
    refine Stmt.decodes_withSpan (.variant (by simp [hkind.plain, Json.Plain.ofOption hvalue]) fun n hn => ?_)
    simp only [List.forall_mem_cons] at hn
    rw [Json.variant, Stmt.decodeKind]
    refine fields?_bind rfl (by decide) ?_
    simp [Json.Fields.required, Json.Fields.optional, hkind.decode n hn.1,
      Json.option?_ofOption hvalue hn.2.1]
  | method decl span =>
    have hdecl := Method.decodes decl
    rw [Stmt.encode]
    refine Stmt.decodes_withSpan (.tagged hdecl.plain fun n hn => ?_)
    rw [Json.tagged, Stmt.decodeKind, hdecl.decode n hn]
    rfl
  | switch discriminant cases span =>
    have hdiscriminant := discriminant.decodes
    have hcases := Decodes.list (Case.decodesAll cases)
    rw [← Case.encodeAll_eq_map] at hcases
    rw [Stmt.encode]
    refine Stmt.decodes_withSpan (.variant (by simp [hdiscriminant.plain, hcases.plain]) fun n hn => ?_)
    simp only [List.forall_mem_cons] at hn
    rw [Json.variant, Stmt.decodeKind]
    refine fields?_bind rfl (by decide) ?_
    simp [Json.Fields.required, hdiscriminant.decode n hn.1, hcases.decode n hn.2.1]

theorem Stmt.decodesOption (s : Option Stmt) : ∀ k ∈ s, Decodes Stmt.decode k.encode k := by
  cases s with
  | none => exact fun _ hk => nomatch hk
  | some s =>
    rintro _ ⟨⟩
    exact Stmt.decodes s

theorem Stmt.decodesAll (ss : List Stmt) : ∀ s ∈ ss, Decodes Stmt.decode s.encode s := by
  cases ss with
  | nil => exact List.forall_mem_nil _
  | cons s ss => exact List.forall_mem_cons.mpr ⟨Stmt.decodes s, Stmt.decodesAll ss⟩

/-- A block is read back with its statements in order and its own span. -/
theorem Block.decodes (b : Block) : Decodes Block.decode b.encode b := by
  cases b with
  | mk stmts span =>
    have hstmts := Decodes.list (Stmt.decodesAll stmts)
    rw [← Stmt.encodeAll_eq_map] at hstmts
    have hspan := span.decodes
    rw [Block.encode]
    refine .record (by simp [hstmts.plain, hspan.plain]) fun n hn => ?_
    simp only [List.forall_mem_cons] at hn
    rw [Block.decode]
    refine fields?_bind rfl (by decide) ?_
    simp [Json.Fields.required, Json.Fields.defaulted, hstmts.decode n hn.1, hspan.decode n hn.2.1]

theorem Block.decodesOption (b : Option Block) : ∀ k ∈ b, Decodes Block.decode k.encode k := by
  cases b with
  | none => exact fun _ hk => nomatch hk
  | some b =>
    rintro _ ⟨⟩
    exact Block.decodes b

/-- A case without a test is the default one, and it stays so. -/
theorem Case.decodesAll (cases : List Case) : ∀ c ∈ cases, Decodes Case.decode c.encode c := by
  cases cases with
  | nil => exact List.forall_mem_nil _
  | cons c cases =>
    refine List.forall_mem_cons.mpr ⟨?_, Case.decodesAll cases⟩
    cases c with
    | mk test body =>
      have htest := fun e (_ : e ∈ test) => e.decodes
      have hbody := Block.decodes body
      refine .record (by simp [Json.Plain.ofOption htest, hbody.plain]) fun n hn => ?_
      simp only [List.forall_mem_cons] at hn
      rw [Case.decode]
      refine fields?_bind rfl (by decide) ?_
      simp [Json.Fields.required, Json.Fields.optional, Json.option?_ofOption htest hn.1,
        hbody.decode n hn.2.1]

/-- **A method is read back from what is written of it**, nested ones included. -/
theorem Method.decodes (m : Method) : Decodes Method.decode m.encode m := by
  cases m with
  | mk name visibility isStatic params ret body span =>
    have hvisibility := visibility.decodes
    have hparams := Decodes.list fun p (_ : p ∈ params) => p.decodes
    have hret := ret.decodes
    have hbody := Block.decodes body
    have hspan := span.decodes
    rw [Method.encode]
    refine .record ?_ fun n hn => ?_
    · simp [hvisibility.plain, hparams.plain, hret.plain, hbody.plain, hspan.plain]
    · simp only [List.forall_mem_cons] at hn
      obtain ⟨_, hv, _, hp, hr, hb, hs, _⟩ := hn
      rw [Method.decode]
      refine fields?_bind rfl (by decide) ?_
      simp [Json.Fields.required, Json.Fields.defaulted, hvisibility.decode n hv, hparams.decode n hp,
        hret.decode n hr, hbody.decode n hb, hspan.decode n hs]

end

end Lowering
