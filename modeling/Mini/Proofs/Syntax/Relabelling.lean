import Mini.Value

/-!
# New labels

Places, references to arrays and identities of literals are labels: a program compares them and
hands them on, and that is all. So are names, but for a few that mean something of their own. A
relabelling says what to put for each label. Here it reaches the trees.
-/

namespace Mini

/-- The names that mean something of their own. -/
def reservedNames : List String :=
  ["print", "true", "false"]

/-- New labels for places, names, references and literals. Different names, references and literals
stay different, and the reserved names stay what they are. -/
structure Relabelling where
  place : Location → Location
  name : String → String
  ref : Ref → Ref
  literal : FunctionId → FunctionId
  name_injective : Function.Injective name
  ref_injective : Function.Injective ref
  literal_injective : Function.Injective literal
  name_reserved : ∀ reserved ∈ reservedNames, ∀ n, name n = reserved ↔ n = reserved

namespace Relabelling

variable (ρ : Relabelling)

/-! ## Trees -/

def identifier (id : Identifier) : Identifier :=
  ⟨ρ.place id.location, ρ.name id.name⟩

mutual

/-- An expression with new places and names. -/
def expr : Expr → Expr
  | .number location n => .number (ρ.place location) n
  | .text location value => .text (ρ.place location) value
  | .ident id => .ident (ρ.identifier id)
  | .func location params body =>
      .func (ρ.place location) (params.map ρ.identifier) (block body)
  | .array location items => .array (ρ.place location) (elements items)
  | .unary location op operand => .unary (ρ.place location) op (expr operand)
  | .binary location op left right => .binary (ρ.place location) op (expr left) (expr right)
  | .index location base key => .index (ρ.place location) (expr base) (expr key)
  | .select location base selector =>
      .select (ρ.place location) (expr base) (ρ.identifier selector)
  | .paren location inner => .paren (ρ.place location) (expr inner)
  | .call location callee args => .call (ρ.place location) (expr callee) (exprs args)

def exprs : List Expr → List Expr
  | [] => []
  | e :: es => expr e :: exprs es

def element : Element → Element
  | .plain value => .plain (expr value)
  | .keyed location key value => .keyed (ρ.place location) (expr key) (expr value)

def elements : List Element → List Element
  | [] => []
  | item :: items => element item :: elements items

/-- A statement with new places and names. -/
def stmt : Stmt → Stmt
  | .block body => .block (block body)
  | .assign location target value =>
      .assign (ρ.place location) (expr target) (expr value)
  | .cond item => .cond (branch item)
  | .empty location => .empty (ρ.place location)
  | .expr location value => .expr (ρ.place location) (expr value)
  | .loop location test body => .loop (ρ.place location) (expr test) (block body)
  | .ret location none => .ret (ρ.place location) none
  | .ret location (some value) => .ret (ρ.place location) (some (expr value))

def stmts : List Stmt → List Stmt
  | [] => []
  | item :: items => stmt item :: stmts items

def block : Block → Block
  | .mk location statements => .mk (ρ.place location) (stmts statements)

def branch : Branch → Branch
  | .mk location test body rest =>
      .mk (ρ.place location) (expr test) (block body) (otherwise rest)

def otherwise : Otherwise → Otherwise
  | .nothing => .nothing
  | .block body => .block (block body)
  | .branch next => .branch (branch next)

end

/-- A program with new places and names. -/
def program (p : Program) : Program :=
  ⟨ρ.stmts p.statements⟩

/-! ### The labels that are there already -/

/-- Places and names stay what they are. -/
structure KeepsTrees (ρ : Relabelling) : Prop where
  place : ∀ l, ρ.place l = l
  name : ∀ n, ρ.name n = n

/-- The labels as they are. -/
def same : Relabelling where
  place := id
  name := id
  ref := id
  literal := id
  name_injective := Function.injective_id
  ref_injective := Function.injective_id
  literal_injective := Function.injective_id
  name_reserved _ _ _ := Iff.rfl

theorem keepsTrees_same : same.KeepsTrees :=
  ⟨fun _ => rfl, fun _ => rfl⟩

namespace KeepsTrees

variable {ρ : Relabelling}

theorem identifier_eq (keeps : ρ.KeepsTrees) (id : Identifier) : ρ.identifier id = id := by
  rw [identifier, keeps.place, keeps.name]

theorem params_eq (keeps : ρ.KeepsTrees) (params : List Identifier) :
    params.map ρ.identifier = params := by
  rw [funext keeps.identifier_eq, List.map_id']

mutual

theorem expr_eq (keeps : ρ.KeepsTrees) : ∀ e, ρ.expr e = e
  | .number _ _ => by rw [expr, keeps.place]
  | .text _ _ => by rw [expr, keeps.place]
  | .ident id => by rw [expr, keeps.identifier_eq]
  | .func _ params body => by rw [expr, keeps.place, keeps.params_eq, keeps.block_eq body]
  | .array _ items => by rw [expr, keeps.place, keeps.elements_eq items]
  | .unary _ _ operand => by rw [expr, keeps.place, keeps.expr_eq operand]
  | .binary _ _ left right => by rw [expr, keeps.place, keeps.expr_eq left, keeps.expr_eq right]
  | .index _ base key => by rw [expr, keeps.place, keeps.expr_eq base, keeps.expr_eq key]
  | .select _ base _ => by rw [expr, keeps.place, keeps.expr_eq base, keeps.identifier_eq]
  | .paren _ inner => by rw [expr, keeps.place, keeps.expr_eq inner]
  | .call _ callee args => by rw [expr, keeps.place, keeps.expr_eq callee, keeps.exprs_eq args]

theorem exprs_eq (keeps : ρ.KeepsTrees) : ∀ es, ρ.exprs es = es
  | [] => rfl
  | e :: es => by rw [exprs, keeps.expr_eq e, keeps.exprs_eq es]

theorem element_eq (keeps : ρ.KeepsTrees) : ∀ item, ρ.element item = item
  | .plain value => by rw [element, keeps.expr_eq value]
  | .keyed _ key value => by rw [element, keeps.place, keeps.expr_eq key, keeps.expr_eq value]

theorem elements_eq (keeps : ρ.KeepsTrees) : ∀ items, ρ.elements items = items
  | [] => rfl
  | item :: items => by rw [elements, keeps.element_eq item, keeps.elements_eq items]

theorem stmt_eq (keeps : ρ.KeepsTrees) : ∀ st, ρ.stmt st = st
  | .block body => by rw [stmt, keeps.block_eq body]
  | .assign _ target value => by rw [stmt, keeps.place, keeps.expr_eq target, keeps.expr_eq value]
  | .cond item => by rw [stmt, keeps.branch_eq item]
  | .empty _ => by rw [stmt, keeps.place]
  | .expr _ value => by rw [stmt, keeps.place, keeps.expr_eq value]
  | .loop _ test body => by rw [stmt, keeps.place, keeps.expr_eq test, keeps.block_eq body]
  | .ret _ none => by rw [stmt, keeps.place]
  | .ret _ (some value) => by rw [stmt, keeps.place, keeps.expr_eq value]

theorem stmts_eq (keeps : ρ.KeepsTrees) : ∀ sts, ρ.stmts sts = sts
  | [] => rfl
  | st :: sts => by rw [stmts, keeps.stmt_eq st, keeps.stmts_eq sts]

theorem block_eq (keeps : ρ.KeepsTrees) : ∀ body, ρ.block body = body
  | .mk _ statements => by rw [block, keeps.place, keeps.stmts_eq statements]

theorem branch_eq (keeps : ρ.KeepsTrees) : ∀ item, ρ.branch item = item
  | .mk _ test body rest => by
      rw [branch, keeps.place, keeps.expr_eq test, keeps.block_eq body, keeps.otherwise_eq rest]

theorem otherwise_eq (keeps : ρ.KeepsTrees) : ∀ rest, ρ.otherwise rest = rest
  | .nothing => rfl
  | .block body => by rw [otherwise, keeps.block_eq body]
  | .branch next => by rw [otherwise, keeps.branch_eq next]

end

/-- Where places and names are what they were, so is the program. -/
theorem program_eq (keeps : ρ.KeepsTrees) (p : Program) : ρ.program p = p := by
  rw [program, keeps.stmts_eq]

end KeepsTrees

/-! ### What trees look like -/

theorem length_exprs (es : List Expr) : (ρ.exprs es).length = es.length := by
  induction es with
  | nil => rfl
  | cons e es ih => rw [exprs, List.length_cons, List.length_cons, ih]

theorem location_expr (e : Expr) : (ρ.expr e).location = ρ.place e.location := by
  cases e <;> rfl

theorem location_block (body : Block) : (ρ.block body).location = ρ.place body.location := by
  cases body
  rfl

theorem statements_block (body : Block) : (ρ.block body).statements = ρ.stmts body.statements := by
  cases body
  rfl

theorem location_stmt (st : Stmt) : (ρ.stmt st).location = ρ.place st.location := by
  cases st with
  | block body => exact ρ.location_block body
  | cond item =>
      cases item
      rfl
  | ret _ result => cases result <;> rfl
  | assign | empty | expr | loop => rfl

theorem kindName_stmt (st : Stmt) : (ρ.stmt st).kindName = st.kindName := by
  cases st with
  | ret _ result => cases result <;> rfl
  | block | cond | assign | empty | expr | loop => rfl

end Relabelling

end Mini
