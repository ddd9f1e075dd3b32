import Mathlib.Logic.Equiv.Fintype
import Mini.Proofs.Syntax.Leaves
import Mini.Proofs.Syntax.Relabelling

/-!
# Renaming

A renaming puts a new name for each name of a tree, wherever it stands: variables, parameters,
selectors and what is called. It only has to keep the names apart that the tree has. So it may be
taken for a permutation of all names, which is what a relabelling needs.
-/

namespace Mini

/-! ## Trees with new names -/

def Identifier.rename (f : String → String) (id : Identifier) : Identifier :=
  ⟨id.location, f id.name⟩

mutual

/-- An expression with new names. -/
def Expr.rename (f : String → String) : Expr → Expr
  | .number location n => .number location n
  | .text location value => .text location value
  | .ident id => .ident (id.rename f)
  | .func location params body => .func location (params.map (.rename f)) (body.rename f)
  | .array location items => .array location (Element.listRename f items)
  | .unary location op operand => .unary location op (operand.rename f)
  | .binary location op left right => .binary location op (left.rename f) (right.rename f)
  | .index location base key => .index location (base.rename f) (key.rename f)
  | .select location base selector => .select location (base.rename f) (selector.rename f)
  | .paren location inner => .paren location (inner.rename f)
  | .call location callee args => .call location (callee.rename f) (Expr.listRename f args)

def Expr.listRename (f : String → String) : List Expr → List Expr
  | [] => []
  | e :: es => e.rename f :: Expr.listRename f es

def Element.rename (f : String → String) : Element → Element
  | .plain value => .plain (value.rename f)
  | .keyed location key value => .keyed location (key.rename f) (value.rename f)

def Element.listRename (f : String → String) : List Element → List Element
  | [] => []
  | item :: items => item.rename f :: Element.listRename f items

/-- A statement with new names. -/
def Stmt.rename (f : String → String) : Stmt → Stmt
  | .block body => .block (body.rename f)
  | .assign location target value => .assign location (target.rename f) (value.rename f)
  | .cond item => .cond (item.rename f)
  | .empty location => .empty location
  | .expr location value => .expr location (value.rename f)
  | .loop location test body => .loop location (test.rename f) (body.rename f)
  | .ret location none => .ret location none
  | .ret location (some value) => .ret location (some (value.rename f))

def Stmt.listRename (f : String → String) : List Stmt → List Stmt
  | [] => []
  | item :: items => item.rename f :: Stmt.listRename f items

def Block.rename (f : String → String) : Block → Block
  | .mk location statements => .mk location (Stmt.listRename f statements)

def Branch.rename (f : String → String) : Branch → Branch
  | .mk location test body rest =>
      .mk location (test.rename f) (body.rename f) (rest.rename f)

def Otherwise.rename (f : String → String) : Otherwise → Otherwise
  | .nothing => .nothing
  | .block body => .block (body.rename f)
  | .branch next => .branch (next.rename f)

end

/-- A program with new names. -/
def Program.rename (f : String → String) (p : Program) : Program :=
  ⟨Stmt.listRename f p.statements⟩

/-- The name that a leaf is. -/
def Leaf.name? : Leaf → Option String
  | .name n => some n
  | .number _ | .text _ | .operator _ | .mark _ => none

/-- The names of a program, wherever they stand. -/
def Program.names (p : Program) : List String :=
  p.leaves.filterMap Leaf.name?

/-! ## Relabellings that give new names only -/

/-- A permutation of names that keeps the reserved ones where they are. -/
structure Renaming where
  name : Equiv.Perm String
  fixes : ∀ reserved ∈ reservedNames, name reserved = reserved

/-- The relabelling that gives new names and keeps all other labels. -/
def Renaming.relabelling (r : Renaming) : Relabelling :=
  { Relabelling.same with
    name := r.name
    name_injective := r.name.injective
    name_reserved := by
      intro reserved mem n
      constructor
      · intro same
        exact r.name.injective (same.trans (r.fixes reserved mem).symm)
      · rintro rfl
        exact r.fixes n mem }

/-- The names as they are. -/
def Renaming.identity : Renaming :=
  ⟨Equiv.refl String, fun _ _ => rfl⟩

/-- The new names are those of `f` as far as the names among some leaves go. -/
def Renaming.Agrees (r : Renaming) (f : String → String) (leaves : List Leaf) : Prop :=
  ∀ n, Leaf.name n ∈ leaves → r.name n = f n

namespace Renaming

variable {r : Renaming} {f : String → String}

@[simp] theorem agrees_nil : r.Agrees f [] :=
  nofun

@[simp] theorem agrees_cons (leaf : Leaf) (leaves : List Leaf) :
    r.Agrees f (leaf :: leaves) ↔ (∀ n, leaf = .name n → r.name n = f n) ∧ r.Agrees f leaves := by
  simp only [Agrees, List.mem_cons]
  grind

@[simp] theorem agrees_append (leaves leaves' : List Leaf) :
    r.Agrees f (leaves ++ leaves') ↔ r.Agrees f leaves ∧ r.Agrees f leaves' := by
  simp only [Agrees, List.mem_append]
  grind

theorem identifier_eq {id : Identifier} (agrees : r.name id.name = f id.name) :
    r.relabelling.identifier id = id.rename f := by
  show Identifier.mk id.location (r.name id.name) = _
  rw [agrees]
  rfl

theorem params_eq {params : List Identifier}
    (agrees : r.Agrees f (params.map (.name ·.name))) :
    params.map r.relabelling.identifier = params.map (.rename f) := by
  apply List.map_congr_left
  intro param mem
  exact identifier_eq (agrees _ (List.mem_map_of_mem mem))

mutual

theorem expr_eq : ∀ {e : Expr}, r.Agrees f e.leaves → r.relabelling.expr e = e.rename f
  | .number _ _, _ => rfl
  | .text _ _, _ => rfl
  | .ident id, h => by
      have name : r.name id.name = f id.name := by simpa [Expr.leaves] using h
      rw [Relabelling.expr, Expr.rename, identifier_eq name]
  | .func _ params body, h => by
      obtain ⟨first, rest⟩ : r.Agrees f (params.map (.name ·.name)) ∧ r.Agrees f body.leaves := by
        simpa [Expr.leaves] using h
      rw [Relabelling.expr, Expr.rename, params_eq first, block_eq rest]
      rfl
  | .array _ items, h => by
      have inner : r.Agrees f (Element.listLeaves items) := by simpa [Expr.leaves] using h
      rw [Relabelling.expr, Expr.rename, elements_eq inner]
      rfl
  | .unary _ _ operand, h => by
      have inner : r.Agrees f operand.leaves := by simpa [Expr.leaves] using h
      rw [Relabelling.expr, Expr.rename, expr_eq inner]
      rfl
  | .binary _ _ left right, h => by
      obtain ⟨first, rest⟩ : r.Agrees f left.leaves ∧ r.Agrees f right.leaves := by
        simpa [Expr.leaves] using h
      rw [Relabelling.expr, Expr.rename, expr_eq first, expr_eq rest]
      rfl
  | .index _ base key, h => by
      obtain ⟨first, rest⟩ : r.Agrees f base.leaves ∧ r.Agrees f key.leaves := by
        simpa [Expr.leaves] using h
      rw [Relabelling.expr, Expr.rename, expr_eq first, expr_eq rest]
      rfl
  | .select _ base selector, h => by
      obtain ⟨first, name⟩ : r.Agrees f base.leaves ∧ r.name selector.name = f selector.name := by
        simpa [Expr.leaves] using h
      rw [Relabelling.expr, Expr.rename, expr_eq first, identifier_eq name]
      rfl
  | .paren _ inner, h => by
      have agrees : r.Agrees f inner.leaves := by simpa [Expr.leaves] using h
      rw [Relabelling.expr, Expr.rename, expr_eq agrees]
      rfl
  | .call _ callee args, h => by
      obtain ⟨first, rest⟩ : r.Agrees f callee.leaves ∧ r.Agrees f (Expr.listLeaves args) := by
        simpa [Expr.leaves] using h
      rw [Relabelling.expr, Expr.rename, expr_eq first, exprs_eq rest]
      rfl

theorem exprs_eq : ∀ {es : List Expr}, r.Agrees f (Expr.listLeaves es) →
    r.relabelling.exprs es = Expr.listRename f es
  | [], _ => rfl
  | e :: es, h => by
      obtain ⟨first, rest⟩ := (agrees_append _ _).mp h
      rw [Relabelling.exprs, Expr.listRename, expr_eq first, exprs_eq rest]

theorem element_eq : ∀ {item : Element}, r.Agrees f item.leaves →
    r.relabelling.element item = item.rename f
  | .plain value, h => by
      rw [Relabelling.element, Element.rename, expr_eq h]
  | .keyed _ key value, h => by
      obtain ⟨first, rest⟩ : r.Agrees f key.leaves ∧ r.Agrees f value.leaves := by
        simpa [Element.leaves] using h
      rw [Relabelling.element, Element.rename, expr_eq first, expr_eq rest]
      rfl

theorem elements_eq : ∀ {items : List Element}, r.Agrees f (Element.listLeaves items) →
    r.relabelling.elements items = Element.listRename f items
  | [], _ => rfl
  | item :: items, h => by
      obtain ⟨first, rest⟩ := (agrees_append _ _).mp h
      rw [Relabelling.elements, Element.listRename, element_eq first, elements_eq rest]

theorem stmt_eq : ∀ {st : Stmt}, r.Agrees f st.leaves → r.relabelling.stmt st = st.rename f
  | .block body, h => by
      have inner : r.Agrees f body.leaves := by simpa [Stmt.leaves] using h
      rw [Relabelling.stmt, Stmt.rename, block_eq inner]
  | .assign _ target value, h => by
      obtain ⟨first, rest⟩ : r.Agrees f target.leaves ∧ r.Agrees f value.leaves := by
        simpa [Stmt.leaves] using h
      rw [Relabelling.stmt, Stmt.rename, expr_eq first, expr_eq rest]
      rfl
  | .cond item, h => by
      have inner : r.Agrees f item.leaves := by simpa [Stmt.leaves] using h
      rw [Relabelling.stmt, Stmt.rename, branch_eq inner]
  | .empty _, _ => rfl
  | .expr _ value, h => by
      rw [Relabelling.stmt, Stmt.rename, expr_eq h]
      rfl
  | .loop _ test body, h => by
      obtain ⟨first, rest⟩ : r.Agrees f test.leaves ∧ r.Agrees f body.leaves := by
        simpa [Stmt.leaves] using h
      rw [Relabelling.stmt, Stmt.rename, expr_eq first, block_eq rest]
      rfl
  | .ret _ none, _ => rfl
  | .ret _ (some value), h => by
      have inner : r.Agrees f value.leaves := by simpa [Stmt.leaves] using h
      rw [Relabelling.stmt, Stmt.rename, expr_eq inner]
      rfl

theorem stmts_eq : ∀ {sts : List Stmt}, r.Agrees f (Stmt.listLeaves sts) →
    r.relabelling.stmts sts = Stmt.listRename f sts
  | [], _ => rfl
  | st :: sts, h => by
      obtain ⟨first, rest⟩ := (agrees_append _ _).mp h
      rw [Relabelling.stmts, Stmt.listRename, stmt_eq first, stmts_eq rest]

theorem block_eq : ∀ {body : Block}, r.Agrees f body.leaves →
    r.relabelling.block body = body.rename f
  | .mk _ statements, h => by
      have inner : r.Agrees f (Stmt.listLeaves statements) := by simpa [Block.leaves] using h
      rw [Relabelling.block, Block.rename, stmts_eq inner]
      rfl

theorem branch_eq : ∀ {item : Branch}, r.Agrees f item.leaves →
    r.relabelling.branch item = item.rename f
  | .mk _ test body rest, h => by
      obtain ⟨condition, yes, no⟩ :
          r.Agrees f test.leaves ∧ r.Agrees f body.leaves ∧ r.Agrees f rest.leaves := by
        simpa [Branch.leaves] using h
      rw [Relabelling.branch, Branch.rename, expr_eq condition, block_eq yes, otherwise_eq no]
      rfl

theorem otherwise_eq : ∀ {rest : Otherwise}, r.Agrees f rest.leaves →
    r.relabelling.otherwise rest = rest.rename f
  | .nothing, _ => rfl
  | .block body, h => by
      have inner : r.Agrees f body.leaves := by simpa [Otherwise.leaves] using h
      rw [Relabelling.otherwise, Otherwise.rename, block_eq inner]
  | .branch next, h => by
      have inner : r.Agrees f next.leaves := by simpa [Otherwise.leaves] using h
      rw [Relabelling.otherwise, Otherwise.rename, branch_eq inner]

end

theorem mem_names {p : Program} {n : String} : n ∈ p.names ↔ Leaf.name n ∈ p.leaves := by
  simp only [Program.names, List.mem_filterMap]
  constructor
  · rintro ⟨leaf, mem, name⟩
    cases leaf <;> simp_all [Leaf.name?]
  · intro mem
    exact ⟨_, mem, rfl⟩

/-- A program has new names as far as its own names have. -/
theorem program_eq {p : Program} (agrees : ∀ n ∈ p.names, r.name n = f n) :
    r.relabelling.program p = p.rename f := by
  have statements : r.Agrees f (Stmt.listLeaves p.statements) := by
    intro n mem
    exact agrees n (mem_names.mpr mem)
  rw [Relabelling.program, Program.rename, stmts_eq statements]

/-! ## Permutations with given new names -/

/-- What keeps some names apart is, on these names, a permutation of all. -/
theorem exists_agreeing {names : List String}
    (apart : Set.InjOn f {n | n ∈ reservedNames ∨ n ∈ names})
    (fixes : ∀ reserved ∈ reservedNames, f reserved = reserved) :
    ∃ r : Renaming, ∀ n ∈ names, r.name n = f n := by
  have injective : Function.Injective fun n : {n // n ∈ reservedNames ++ names} => f n := by
    intro n m same
    exact Subtype.ext (apart (List.mem_append.mp n.property) (List.mem_append.mp m.property) same)
  obtain ⟨perm, agrees⟩ :=
    Equiv.Perm.exists_extending_pair Subtype.val _ Subtype.val_injective injective
  refine ⟨⟨perm, ?_⟩, ?_⟩
  · intro reserved mem
    exact (agrees ⟨reserved, List.mem_append_left _ mem⟩).trans (fixes reserved mem)
  · intro n mem
    exact agrees ⟨n, List.mem_append_right _ mem⟩

/-- A name that is none of the given ones may as well get another name than it gets: its new name
and one that is not in use change places. -/
theorem exists_differing (r : Renaming) {names : List String} {n : String}
    (unreserved : n ∉ reservedNames) (other : n ∉ names) :
    ∃ r' : Renaming, (∀ m ∈ names, r'.name m = r.name m) ∧ r'.name n ≠ r.name n := by
  obtain ⟨free, unused⟩ :=
    Infinite.exists_notMem_finset ((n :: (reservedNames ++ names)).map r.name).toFinset
  have unused : ∀ m ∈ n :: (reservedNames ++ names), r.name m ≠ free := by
    rintro m mem rfl
    exact unused (List.mem_toFinset.mpr (List.mem_map_of_mem mem))
  have keeps : ∀ m ∈ reservedNames ++ names, m ≠ n →
      Equiv.swap (r.name n) free (r.name m) = r.name m := by
    intro m mem ne
    apply Equiv.swap_apply_of_ne_of_ne
    · exact fun same => ne (r.name.injective same)
    · exact unused m (List.mem_cons_of_mem _ mem)
  refine ⟨⟨r.name.trans (Equiv.swap (r.name n) free), ?_⟩, ?_, ?_⟩
  · intro reserved mem
    rw [Equiv.trans_apply, keeps reserved (List.mem_append_left _ mem), r.fixes reserved mem]
    rintro rfl
    exact unreserved mem
  · intro m mem
    apply keeps m (List.mem_append_right _ mem)
    rintro rfl
    exact other mem
  · rw [Equiv.trans_apply, Equiv.swap_apply_left]
    exact (unused n List.mem_cons_self).symm

end Renaming

theorem Program.rename_identity (p : Program) : p.rename Renaming.identity.name = p := by
  rw [← Renaming.program_eq fun _ _ => rfl]
  exact Relabelling.KeepsTrees.program_eq ⟨fun _ => rfl, fun _ => rfl⟩ p

end Mini
