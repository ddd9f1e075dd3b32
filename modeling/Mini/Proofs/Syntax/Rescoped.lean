import Mini.Syntax

/-!
# Trees with other scopes

Where one tree has a list of statements, as a program or in the braces of a block or of a function,
the other may have one block with that list in it. Everything else is the same, locations included.
Which of the two trees has the block may differ from list to list, so the relation is symmetric, and
a tree is related to any that comes of it by putting one of its lists into a block.
-/

namespace Mini

mutual

/-- Expressions that are the same but for blocks around lists of statements. -/
inductive Expr.Rescoped : Expr → Expr → Prop
  | number (location : Location) (n : Int) :
      Expr.Rescoped (.number location n) (.number location n)
  | text (location : Location) (s : String) :
      Expr.Rescoped (.text location s) (.text location s)
  | ident (id : Identifier) : Expr.Rescoped (.ident id) (.ident id)
  | func (location : Location) (params : List Identifier) {body body' : Block} :
      Block.Rescoped body body' →
        Expr.Rescoped (.func location params body) (.func location params body')
  | array (location : Location) {elements elements' : List Element} :
      Element.ListRescoped elements elements' →
        Expr.Rescoped (.array location elements) (.array location elements')
  | unary (location : Location) (op : Token) {operand operand' : Expr} :
      Expr.Rescoped operand operand' →
        Expr.Rescoped (.unary location op operand) (.unary location op operand')
  | binary (location : Location) (op : Token) {left left' right right' : Expr} :
      Expr.Rescoped left left' → Expr.Rescoped right right' →
        Expr.Rescoped (.binary location op left right) (.binary location op left' right')
  | index (location : Location) {base base' key key' : Expr} :
      Expr.Rescoped base base' → Expr.Rescoped key key' →
        Expr.Rescoped (.index location base key) (.index location base' key')
  | select (location : Location) {base base' : Expr} (selector : Identifier) :
      Expr.Rescoped base base' →
        Expr.Rescoped (.select location base selector) (.select location base' selector)
  | paren (location : Location) {inner inner' : Expr} :
      Expr.Rescoped inner inner' →
        Expr.Rescoped (.paren location inner) (.paren location inner')
  | call (location : Location) {callee callee' : Expr} {args args' : List Expr} :
      Expr.Rescoped callee callee' → Expr.ListRescoped args args' →
        Expr.Rescoped (.call location callee args) (.call location callee' args')

inductive Expr.ListRescoped : List Expr → List Expr → Prop
  | nil : Expr.ListRescoped [] []
  | cons {e e' : Expr} {es es' : List Expr} :
      Expr.Rescoped e e' → Expr.ListRescoped es es' → Expr.ListRescoped (e :: es) (e' :: es')

inductive Element.Rescoped : Element → Element → Prop
  | plain {value value' : Expr} :
      Expr.Rescoped value value' → Element.Rescoped (.plain value) (.plain value')
  | keyed (location : Location) {key key' value value' : Expr} :
      Expr.Rescoped key key' → Expr.Rescoped value value' →
        Element.Rescoped (.keyed location key value) (.keyed location key' value')

inductive Element.ListRescoped : List Element → List Element → Prop
  | nil : Element.ListRescoped [] []
  | cons {element element' : Element} {elements elements' : List Element} :
      Element.Rescoped element element' → Element.ListRescoped elements elements' →
        Element.ListRescoped (element :: elements) (element' :: elements')

/-- Statements that are the same but for blocks around lists of statements. -/
inductive Stmt.Rescoped : Stmt → Stmt → Prop
  | block {body body' : Block} :
      Block.Rescoped body body' → Stmt.Rescoped (.block body) (.block body')
  | assign (location : Location) {target target' value value' : Expr} :
      Expr.Rescoped target target' → Expr.Rescoped value value' →
        Stmt.Rescoped (.assign location target value) (.assign location target' value')
  | cond {branch branch' : Branch} :
      Branch.Rescoped branch branch' → Stmt.Rescoped (.cond branch) (.cond branch')
  | empty (location : Location) : Stmt.Rescoped (.empty location) (.empty location)
  | expr (location : Location) {value value' : Expr} :
      Expr.Rescoped value value' → Stmt.Rescoped (.expr location value) (.expr location value')
  | loop (location : Location) {test test' : Expr} {body body' : Block} :
      Expr.Rescoped test test' → Block.Rescoped body body' →
        Stmt.Rescoped (.loop location test body) (.loop location test' body')
  | ret (location : Location) : Stmt.Rescoped (.ret location none) (.ret location none)
  | retValue (location : Location) {value value' : Expr} :
      Expr.Rescoped value value' →
        Stmt.Rescoped (.ret location (some value)) (.ret location (some value'))

inductive Stmt.ListRescoped : List Stmt → List Stmt → Prop
  | nil : Stmt.ListRescoped [] []
  | cons {st st' : Stmt} {sts sts' : List Stmt} :
      Stmt.Rescoped st st' → Stmt.ListRescoped sts sts' →
        Stmt.ListRescoped (st :: sts) (st' :: sts')

/-- Lists of statements with a scope of their own, one of which may stand in a block. -/
inductive Stmt.BodyRescoped : List Stmt → List Stmt → Prop
  | same {sts sts' : List Stmt} : Stmt.ListRescoped sts sts' → Stmt.BodyRescoped sts sts'
  | inner (location : Location) {sts sts' : List Stmt} :
      Stmt.ListRescoped sts sts' → Stmt.BodyRescoped sts [.block (.mk location sts')]
  | outer (location : Location) {sts sts' : List Stmt} :
      Stmt.ListRescoped sts sts' → Stmt.BodyRescoped [.block (.mk location sts)] sts'

inductive Block.Rescoped : Block → Block → Prop
  | mk (location : Location) {sts sts' : List Stmt} :
      Stmt.BodyRescoped sts sts' → Block.Rescoped (.mk location sts) (.mk location sts')

inductive Branch.Rescoped : Branch → Branch → Prop
  | mk (location : Location) {test test' : Expr} {body body' : Block}
      {otherwise otherwise' : Otherwise} :
      Expr.Rescoped test test' → Block.Rescoped body body' →
        Otherwise.Rescoped otherwise otherwise' →
          Branch.Rescoped (.mk location test body otherwise) (.mk location test' body' otherwise')

inductive Otherwise.Rescoped : Otherwise → Otherwise → Prop
  | nothing : Otherwise.Rescoped .nothing .nothing
  | block {body body' : Block} :
      Block.Rescoped body body' → Otherwise.Rescoped (.block body) (.block body')
  | branch {next next' : Branch} :
      Branch.Rescoped next next' → Otherwise.Rescoped (.branch next) (.branch next')

end

/-- Programs that are the same but for blocks around lists of statements. -/
def Program.Rescoped (p p' : Program) : Prop :=
  Stmt.BodyRescoped p.statements p'.statements

/-! ## No other scopes -/

mutual

theorem Expr.Rescoped.refl : ∀ e : Expr, Expr.Rescoped e e
  | .number location n => .number location n
  | .text location s => .text location s
  | .ident id => .ident id
  | .func location params body => .func location params (Block.Rescoped.refl body)
  | .array location elements => .array location (Element.ListRescoped.refl elements)
  | .unary location op operand => .unary location op (Expr.Rescoped.refl operand)
  | .binary location op left right =>
      .binary location op (Expr.Rescoped.refl left) (Expr.Rescoped.refl right)
  | .index location base key =>
      .index location (Expr.Rescoped.refl base) (Expr.Rescoped.refl key)
  | .select location base selector => .select location selector (Expr.Rescoped.refl base)
  | .paren location inner => .paren location (Expr.Rescoped.refl inner)
  | .call location callee args =>
      .call location (Expr.Rescoped.refl callee) (Expr.ListRescoped.refl args)

theorem Expr.ListRescoped.refl : ∀ es : List Expr, Expr.ListRescoped es es
  | [] => .nil
  | e :: es => .cons (Expr.Rescoped.refl e) (Expr.ListRescoped.refl es)

theorem Element.Rescoped.refl : ∀ element : Element, Element.Rescoped element element
  | .plain value => .plain (Expr.Rescoped.refl value)
  | .keyed location key value =>
      .keyed location (Expr.Rescoped.refl key) (Expr.Rescoped.refl value)

theorem Element.ListRescoped.refl : ∀ elements : List Element,
    Element.ListRescoped elements elements
  | [] => .nil
  | element :: elements =>
      .cons (Element.Rescoped.refl element) (Element.ListRescoped.refl elements)

theorem Stmt.Rescoped.refl : ∀ st : Stmt, Stmt.Rescoped st st
  | .block body => .block (Block.Rescoped.refl body)
  | .assign location target value =>
      .assign location (Expr.Rescoped.refl target) (Expr.Rescoped.refl value)
  | .cond branch => .cond (Branch.Rescoped.refl branch)
  | .empty location => .empty location
  | .expr location value => .expr location (Expr.Rescoped.refl value)
  | .loop location test body =>
      .loop location (Expr.Rescoped.refl test) (Block.Rescoped.refl body)
  | .ret location none => .ret location
  | .ret location (some value) => .retValue location (Expr.Rescoped.refl value)

theorem Stmt.ListRescoped.refl : ∀ sts : List Stmt, Stmt.ListRescoped sts sts
  | [] => .nil
  | st :: sts => .cons (Stmt.Rescoped.refl st) (Stmt.ListRescoped.refl sts)

theorem Block.Rescoped.refl : ∀ body : Block, Block.Rescoped body body
  | .mk location sts => .mk location (.same (Stmt.ListRescoped.refl sts))

theorem Branch.Rescoped.refl : ∀ branch : Branch, Branch.Rescoped branch branch
  | .mk location test body otherwise =>
      .mk location (Expr.Rescoped.refl test) (Block.Rescoped.refl body)
        (Otherwise.Rescoped.refl otherwise)

theorem Otherwise.Rescoped.refl : ∀ otherwise : Otherwise,
    Otherwise.Rescoped otherwise otherwise
  | .nothing => .nothing
  | .block body => .block (Block.Rescoped.refl body)
  | .branch next => .branch (Branch.Rescoped.refl next)

end

/-! ## The other way round -/

mutual

theorem Expr.Rescoped.symm : ∀ {e e' : Expr}, Expr.Rescoped e e' → Expr.Rescoped e' e
  | _, _, .number location n => .number location n
  | _, _, .text location s => .text location s
  | _, _, .ident id => .ident id
  | _, _, .func location params body => .func location params body.symm
  | _, _, .array location elements => .array location elements.symm
  | _, _, .unary location op operand => .unary location op operand.symm
  | _, _, .binary location op left right => .binary location op left.symm right.symm
  | _, _, .index location base key => .index location base.symm key.symm
  | _, _, .select location selector base => .select location selector base.symm
  | _, _, .paren location inner => .paren location inner.symm
  | _, _, .call location callee args => .call location callee.symm args.symm

theorem Expr.ListRescoped.symm : ∀ {es es' : List Expr},
    Expr.ListRescoped es es' → Expr.ListRescoped es' es
  | _, _, .nil => .nil
  | _, _, .cons e es => .cons e.symm es.symm

theorem Element.Rescoped.symm : ∀ {element element' : Element},
    Element.Rescoped element element' → Element.Rescoped element' element
  | _, _, .plain value => .plain value.symm
  | _, _, .keyed location key value => .keyed location key.symm value.symm

theorem Element.ListRescoped.symm : ∀ {elements elements' : List Element},
    Element.ListRescoped elements elements' → Element.ListRescoped elements' elements
  | _, _, .nil => .nil
  | _, _, .cons element elements => .cons element.symm elements.symm

theorem Stmt.Rescoped.symm : ∀ {st st' : Stmt}, Stmt.Rescoped st st' → Stmt.Rescoped st' st
  | _, _, .block body => .block body.symm
  | _, _, .assign location target value => .assign location target.symm value.symm
  | _, _, .cond branch => .cond branch.symm
  | _, _, .empty location => .empty location
  | _, _, .expr location value => .expr location value.symm
  | _, _, .loop location test body => .loop location test.symm body.symm
  | _, _, .ret location => .ret location
  | _, _, .retValue location value => .retValue location value.symm

theorem Stmt.ListRescoped.symm : ∀ {sts sts' : List Stmt},
    Stmt.ListRescoped sts sts' → Stmt.ListRescoped sts' sts
  | _, _, .nil => .nil
  | _, _, .cons st sts => .cons st.symm sts.symm

theorem Stmt.BodyRescoped.symm : ∀ {sts sts' : List Stmt},
    Stmt.BodyRescoped sts sts' → Stmt.BodyRescoped sts' sts
  | _, _, .same sts => .same sts.symm
  | _, _, .inner location sts => .outer location sts.symm
  | _, _, .outer location sts => .inner location sts.symm

theorem Block.Rescoped.symm : ∀ {body body' : Block},
    Block.Rescoped body body' → Block.Rescoped body' body
  | _, _, .mk location sts => .mk location sts.symm

theorem Branch.Rescoped.symm : ∀ {branch branch' : Branch},
    Branch.Rescoped branch branch' → Branch.Rescoped branch' branch
  | _, _, .mk location test body otherwise =>
      .mk location test.symm body.symm otherwise.symm

theorem Otherwise.Rescoped.symm : ∀ {otherwise otherwise' : Otherwise},
    Otherwise.Rescoped otherwise otherwise' → Otherwise.Rescoped otherwise' otherwise
  | _, _, .nothing => .nothing
  | _, _, .block body => .block body.symm
  | _, _, .branch next => .branch next.symm

end

/-! ## What is the same -/

theorem Expr.ListRescoped.length_eq {es es' : List Expr} (h : Expr.ListRescoped es es') :
    es'.length = es.length := by
  induction es generalizing es' with
  | nil =>
      cases h
      rfl
  | cons e es ih =>
      cases h with
      | cons _ rest => simp [ih rest]

theorem Block.Rescoped.statements {body body' : Block} (h : Block.Rescoped body body') :
    Stmt.BodyRescoped body.statements body'.statements := by
  cases h
  assumption

/-! ## Putting lists into blocks -/

/-- Which lists of statements are put into a block, and where that is said to be. -/
structure Boxing where
  place : List Stmt → Option Location

namespace Boxing

variable (boxing : Boxing)

/-- What is left of a list, in a block if the list is to be in one. -/
def around (sts left : List Stmt) : List Stmt :=
  match boxing.place sts with
  | some location => [.block (.mk location left)]
  | none => left

mutual

/-- An expression with its lists of statements in blocks. -/
def expr : Expr → Expr
  | .number location n => .number location n
  | .text location s => .text location s
  | .ident id => .ident id
  | .func location params body => .func location params (block body)
  | .array location items => .array location (elements items)
  | .unary location op operand => .unary location op (expr operand)
  | .binary location op left right => .binary location op (expr left) (expr right)
  | .index location base key => .index location (expr base) (expr key)
  | .select location base selector => .select location (expr base) selector
  | .paren location inner => .paren location (expr inner)
  | .call location callee args => .call location (expr callee) (exprs args)

def exprs : List Expr → List Expr
  | [] => []
  | e :: es => expr e :: exprs es

def element : Element → Element
  | .plain value => .plain (expr value)
  | .keyed location key value => .keyed location (expr key) (expr value)

def elements : List Element → List Element
  | [] => []
  | item :: items => element item :: elements items

/-- A statement with its lists of statements in blocks. -/
def stmt : Stmt → Stmt
  | .block body => .block (block body)
  | .assign location target value => .assign location (expr target) (expr value)
  | .cond item => .cond (branch item)
  | .empty location => .empty location
  | .expr location value => .expr location (expr value)
  | .loop location test body => .loop location (expr test) (block body)
  | .ret location none => .ret location none
  | .ret location (some value) => .ret location (some (expr value))

def stmts : List Stmt → List Stmt
  | [] => []
  | item :: items => stmt item :: stmts items

def block : Block → Block
  | .mk location sts => .mk location (boxing.around sts (stmts sts))

def branch : Branch → Branch
  | .mk location test body rest => .mk location (expr test) (block body) (otherwise rest)

def otherwise : Otherwise → Otherwise
  | .nothing => .nothing
  | .block body => .block (block body)
  | .branch next => .branch (branch next)

end

/-- A program with its lists of statements in blocks. -/
def program (p : Program) : Program :=
  ⟨boxing.around p.statements (boxing.stmts p.statements)⟩

theorem rescoped_around {sts left : List Stmt} (rescoped : Stmt.ListRescoped sts left) :
    Stmt.BodyRescoped sts (boxing.around sts left) := by
  unfold around
  split
  · exact .inner _ rescoped
  · exact .same rescoped

mutual

theorem rescoped_expr : ∀ e, Expr.Rescoped e (boxing.expr e)
  | .number location n => .number location n
  | .text location s => .text location s
  | .ident id => .ident id
  | .func location params body => .func location params (rescoped_block body)
  | .array location items => .array location (rescoped_elements items)
  | .unary location op operand => .unary location op (rescoped_expr operand)
  | .binary location op left right =>
      .binary location op (rescoped_expr left) (rescoped_expr right)
  | .index location base key => .index location (rescoped_expr base) (rescoped_expr key)
  | .select location base selector => .select location selector (rescoped_expr base)
  | .paren location inner => .paren location (rescoped_expr inner)
  | .call location callee args => .call location (rescoped_expr callee) (rescoped_exprs args)

theorem rescoped_exprs : ∀ es, Expr.ListRescoped es (boxing.exprs es)
  | [] => .nil
  | e :: es => .cons (rescoped_expr e) (rescoped_exprs es)

theorem rescoped_element : ∀ item, Element.Rescoped item (boxing.element item)
  | .plain value => .plain (rescoped_expr value)
  | .keyed location key value => .keyed location (rescoped_expr key) (rescoped_expr value)

theorem rescoped_elements : ∀ items, Element.ListRescoped items (boxing.elements items)
  | [] => .nil
  | item :: items => .cons (rescoped_element item) (rescoped_elements items)

theorem rescoped_stmt : ∀ st, Stmt.Rescoped st (boxing.stmt st)
  | .block body => .block (rescoped_block body)
  | .assign location target value =>
      .assign location (rescoped_expr target) (rescoped_expr value)
  | .cond item => .cond (rescoped_branch item)
  | .empty location => .empty location
  | .expr location value => .expr location (rescoped_expr value)
  | .loop location test body => .loop location (rescoped_expr test) (rescoped_block body)
  | .ret location none => .ret location
  | .ret location (some value) => .retValue location (rescoped_expr value)

theorem rescoped_stmts : ∀ sts, Stmt.ListRescoped sts (boxing.stmts sts)
  | [] => .nil
  | item :: items => .cons (rescoped_stmt item) (rescoped_stmts items)

theorem rescoped_block : ∀ body, Block.Rescoped body (boxing.block body)
  | .mk location sts => .mk location (boxing.rescoped_around (rescoped_stmts sts))

theorem rescoped_branch : ∀ item, Branch.Rescoped item (boxing.branch item)
  | .mk location test body rest =>
      .mk location (rescoped_expr test) (rescoped_block body) (rescoped_otherwise rest)

theorem rescoped_otherwise : ∀ rest, Otherwise.Rescoped rest (boxing.otherwise rest)
  | .nothing => .nothing
  | .block body => .block (rescoped_block body)
  | .branch next => .branch (rescoped_branch next)

end

/-- Whichever lists of a program are put into blocks, it is the same but for that. -/
theorem rescoped_program (p : Program) : p.Rescoped (boxing.program p) :=
  boxing.rescoped_around (boxing.rescoped_stmts p.statements)

end Boxing

end Mini
