import RowQuery.Eval.Word
import RowQuery.Expr.Basic
import RowQuery.Json.TyForm

/-!
# The stored form of expressions

A node is stored as an object whose one key names its kind; the parts of most kinds are an object
of named fields.  Types are stored with the nodes and read as they stand: nothing is computed
anew.

* `Literal.toJson`, `Param.toJson`, `Expr.toJson`, `Lambda.toJson` — write.
* `Literal.ofJson?`, `Param.ofJson?`, `Expr.ofJson?`, `Lambda.ofJson?` — read; anything but a
  stored tree is refused.  Integers have to be whole and in the range of their type.
* `Expr.ofJson?_toJson`, `Lambda.ofJson?_toJson` — what is written is read back.
-/

namespace RowQuery

/-! ## Names of operators -/

/-- The stored name of an operator of one operand. -/
def UnaryOp.storedName : UnaryOp → String
  | .not => "Not"
  | .neg => "Neg"

/-- The stored name of an operator of two operands. -/
def BinaryOp.storedName : BinaryOp → String
  | .arith .add => "Add"
  | .arith .sub => "Sub"
  | .arith .mul => "Mul"
  | .arith .div => "Div"
  | .arith .rem => "Rem"
  | .eq => "Eq"
  | .ne => "Ne"
  | .order .lt => "Lt"
  | .order .le => "Le"
  | .order .gt => "Gt"
  | .order .ge => "Ge"
  | .and => "And"
  | .or => "Or"
  | .coalesce => "Coalesce"

/-- The stored name of a built-in function. -/
def Builtin.storedName : Builtin → String
  | .toString => "ToString"
  | .len => "Len"
  | .isEmpty => "IsEmpty"
  | .any => "Any"

/-- The operators of one operand. -/
def UnaryOp.all : List UnaryOp := [.not, .neg]

/-- The operators of two operands. -/
def BinaryOp.all : List BinaryOp :=
  [.arith .add, .arith .sub, .arith .mul, .arith .div, .arith .rem, .eq, .ne,
    .order .lt, .order .le, .order .gt, .order .ge, .and, .or, .coalesce]

/-- The built-in functions. -/
def Builtin.all : List Builtin := [.toString, .len, .isEmpty, .any]

/-- The operator of a stored name. -/
def UnaryOp.ofStoredName? (name : String) : Option UnaryOp :=
  all.find? fun op => op.storedName == name

/-- The operator of a stored name. -/
def BinaryOp.ofStoredName? (name : String) : Option BinaryOp :=
  all.find? fun op => op.storedName == name

/-- The built-in function of a stored name. -/
def Builtin.ofStoredName? (name : String) : Option Builtin :=
  all.find? fun func => func.storedName == name

/-- The stored name of an operator is read back. -/
@[simp]
theorem UnaryOp.ofStoredName?_storedName (op : UnaryOp) :
    UnaryOp.ofStoredName? op.storedName = some op := by
  cases op <;> decide

/-- The stored name of an operator is read back. -/
@[simp]
theorem BinaryOp.ofStoredName?_storedName (op : BinaryOp) :
    BinaryOp.ofStoredName? op.storedName = some op := by
  rcases op with op | op | _ | _ | _ | _ | _ <;> (try cases op) <;> decide

/-- The stored name of a built-in function is read back. -/
@[simp]
theorem Builtin.ofStoredName?_storedName (func : Builtin) :
    Builtin.ofStoredName? func.storedName = some func := by
  cases func <;> decide

/-! ## Literals and parameters -/

/-- Writing a constant. -/
def Literal.toJson : Literal → Json
  | .unit => .str "Unit"
  | .null => .str "Null"
  | .bool b => .obj [("Bool", .bool b)]
  | .int n => .obj [("Int", .int n.toInt)]
  | .str s => .obj [("Str", .str s)]

/-- Reading a constant. -/
def Literal.ofJson? : Json → Option Literal
  | .str "Unit" => some .unit
  | .str "Null" => some .null
  | .obj [("Unit", .null)] => some .unit
  | .obj [("Null", .null)] => some .null
  | .obj [("Bool", .bool b)] => some (.bool b)
  | .obj [("Int", .int n)] => (word? n).map .int
  | .obj [("Str", .str s)] => some (.str s)
  | _ => none

/-- The id that is a whole number of 32 bits. -/
def ParamId.ofInt? (n : Int) : Option ParamId :=
  match n with
  | .ofNat k => if h : k < UInt32.size then some ⟨UInt32.ofNatLT k h⟩ else none
  | .negSucc _ => none

/-- Writing a parameter. -/
def Param.toJson (p : Param) : Json :=
  .obj [("id", .int p.id.val.toNat), ("name", .str p.name), ("ty", p.ty.toJson)]

/-- Reading a parameter. -/
def Param.ofJson? (j : Json) : Option Param := do
  let [id, name, ty] ← j.struct? ["id", "name", "ty"] | none
  return ⟨← ParamId.ofInt? (← id.int?), ← name.str?, ← Ty.ofJson? ty⟩

/-- Reading the parameters of a function. -/
def Param.listOfJson? (j : Json) : Option (List Param) := do
  (← j.arr?).mapM Param.ofJson?

/-- A written constant reads back. -/
@[simp]
theorem Literal.ofJson?_toJson (l : Literal) : Literal.ofJson? l.toJson = some l := by
  cases l with
  | int n => simp [toJson, ofJson?, word?_eq_some_iff.2 rfl]
  | _ => simp [toJson, ofJson?]

/-- Every id is a whole number of 32 bits. -/
@[simp]
theorem ParamId.ofInt?_val (id : ParamId) : ParamId.ofInt? id.val.toNat = some id := by
  show (if h : id.val.toNat < UInt32.size then some (ParamId.mk (UInt32.ofNatLT _ h)) else none) = _
  rw [dif_pos id.val.toNat_lt_size, UInt32.ofNatLT_toNat]

/-- A written parameter reads back. -/
@[simp]
theorem Param.ofJson?_toJson (p : Param) : Param.ofJson? p.toJson = some p := by
  have parts : p.toJson.struct? ["id", "name", "ty"] =
      some [.int p.id.val.toNat, .str p.name, p.ty.toJson] := by
    simp [toJson, Json.struct?, List.lookup_cons]
  rw [ofJson?, parts]
  simp [Json.int?, Json.str?]

/-- Written parameters read back. -/
@[simp]
theorem Param.listOfJson?_map_toJson (ps : List Param) :
    Param.listOfJson? (.arr (ps.map Param.toJson)) = some ps := by
  simp only [listOfJson?, Json.arr?, Option.bind_eq_bind, Option.bind_some]
  induction ps with
  | nil => rfl
  | cons p ps ih => simp only [List.map_cons, List.mapM_cons, ofJson?_toJson, ih]; rfl

/-! ## Expressions -/

namespace Expr

mutual

/-- **Writing an expression.** -/
def toJson : Expr → Json
  | .param p => .obj [("Param", p.toJson)]
  | .lit l => .obj [("Lit", l.toJson)]
  | .member object name ty =>
      .obj [("Member", .obj [("object", object.toJson), ("name", .str name), ("ty", ty.toJson)])]
  | .unary op operand ty =>
      .obj [("Unary", .obj [("op", .str op.storedName), ("operand", operand.toJson),
        ("ty", ty.toJson)])]
  | .binary op lhs rhs ty =>
      .obj [("Binary", .obj [("op", .str op.storedName), ("lhs", lhs.toJson),
        ("rhs", rhs.toJson), ("ty", ty.toJson)])]
  | .call func args ty =>
      .obj [("Call", .obj [("func", .str func.storedName), ("args", .arr (toJsonList args)),
        ("ty", ty.toJson)])]
  | .ite cond thenBranch elseBranch ty =>
      .obj [("If", .obj [("cond", cond.toJson), ("then_branch", thenBranch.toJson),
        ("else_branch", elseBranch.toJson), ("ty", ty.toJson)])]
  | .construct ty fields =>
      .obj [("Construct", .obj [("ty", ty.toJson), ("fields", .arr (toJsonFields fields))])]
  | .tuple items => .obj [("Tuple", .arr (toJsonList items))]
  | .list elemTy items =>
      .obj [("List", .obj [("elem_ty", elemTy.toJson), ("elements", .arr (toJsonList items))])]
  | .lambda params body =>
      .obj [("Lambda", .obj [("params", .arr (params.map Param.toJson)), ("body", body.toJson)])]
  | .invoke callee args ty =>
      .obj [("Invoke", .obj [("callee", callee.toJson), ("args", .arr (toJsonList args)),
        ("ty", ty.toJson)])]

/-- `Expr.toJson` on each member of a list. -/
def toJsonList : List Expr → List Json
  | [] => []
  | e :: es => e.toJson :: toJsonList es

/-- Fields are written as pairs of a name and an expression. -/
def toJsonFields : List (String × Expr) → List Json
  | [] => []
  | (name, e) :: fs => .arr [.str name, e.toJson] :: toJsonFields fs

end

/-- What one stored part of a node may be read as. -/
structure Part where
  /-- An expression. -/
  expr? : Option Expr
  /-- An array of expressions. -/
  list? : Option (List Expr)
  /-- An array of named expressions. -/
  fields? : Option (List (String × Expr))

/-- The stored parts of a node, under their names. -/
abbrev Parts := List (String × Part)

namespace Parts

/-- The part of a name, read as an expression. -/
def expr? (parts : Parts) (name : String) : Option Expr := do (← parts.lookup name).expr?

/-- The part of a name, read as a list. -/
def list? (parts : Parts) (name : String) : Option (List Expr) := do (← parts.lookup name).list?

/-- The part of a name, read as named expressions. -/
def fields? (parts : Parts) (name : String) : Option (List (String × Expr)) := do
  (← parts.lookup name).fields?

end Parts

mutual

/-- **Reading an expression.** -/
def ofJson? : Json → Option Expr
  | .obj [("Param", body)] => (Param.ofJson? body).map .param
  | .obj [("Lit", body)] => (Literal.ofJson? body).map .lit
  | .obj [("Member", .obj body)] => do
      let parts := partsOf body
      return .member (← parts.expr? "object") (← (← body.lookup "name").str?)
        (← Ty.ofJson? (← body.lookup "ty"))
  | .obj [("Unary", .obj body)] => do
      let parts := partsOf body
      return .unary (← UnaryOp.ofStoredName? (← (← body.lookup "op").choice?))
        (← parts.expr? "operand") (← Ty.ofJson? (← body.lookup "ty"))
  | .obj [("Binary", .obj body)] => do
      let parts := partsOf body
      return .binary (← BinaryOp.ofStoredName? (← (← body.lookup "op").choice?))
        (← parts.expr? "lhs") (← parts.expr? "rhs") (← Ty.ofJson? (← body.lookup "ty"))
  | .obj [("Call", .obj body)] => do
      let parts := partsOf body
      return .call (← Builtin.ofStoredName? (← (← body.lookup "func").choice?))
        (← parts.list? "args") (← Ty.ofJson? (← body.lookup "ty"))
  | .obj [("If", .obj body)] => do
      let parts := partsOf body
      return .ite (← parts.expr? "cond") (← parts.expr? "then_branch")
        (← parts.expr? "else_branch") (← Ty.ofJson? (← body.lookup "ty"))
  | .obj [("Construct", .obj body)] => do
      let parts := partsOf body
      return .construct (← Ty.ofJson? (← body.lookup "ty")) (← parts.fields? "fields")
  | .obj [("Tuple", .arr items)] => return .tuple (← ofJsonList? items)
  | .obj [("List", .obj body)] => do
      let parts := partsOf body
      return .list (← Ty.ofJson? (← body.lookup "elem_ty")) (← parts.list? "elements")
  | .obj [("Lambda", .obj body)] => do
      let parts := partsOf body
      return .lambda (← Param.listOfJson? (← body.lookup "params")) (← parts.expr? "body")
  | .obj [("Lambda", .arr [params, body])] =>
      return .lambda (← Param.listOfJson? params) (← ofJson? body)
  | .obj [("Invoke", .obj body)] => do
      let parts := partsOf body
      return .invoke (← parts.expr? "callee") (← parts.list? "args")
        (← Ty.ofJson? (← body.lookup "ty"))
  | _ => none

/-- `Expr.ofJson?` on each member of an array; one that is no expression spoils the list. -/
def ofJsonList? : List Json → Option (List Expr)
  | [] => some []
  | j :: js => do return (← ofJson? j) :: (← ofJsonList? js)

/-- Reading pairs of a name and an expression. -/
def ofJsonFields? : List Json → Option (List (String × Expr))
  | [] => some []
  | .arr [.str name, j] :: js => do return (name, ← ofJson? j) :: (← ofJsonFields? js)
  | _ => none

/-- One stored part, read in each way. -/
def partOf : Json → Part
  | .arr items => ⟨none, ofJsonList? items, ofJsonFields? items⟩
  | j => ⟨ofJson? j, none, none⟩

/-- The stored parts of a node. -/
def partsOf : List (String × Json) → Parts
  | [] => []
  | (name, j) :: fs => (name, partOf j) :: partsOf fs

end

/-- A written expression is no array, so it reads as an expression only. -/
@[simp]
theorem partOf_toJson (e : Expr) : partOf e.toJson = ⟨ofJson? e.toJson, none, none⟩ := by
  cases e <;> simp [toJson, partOf]

mutual

/-- **Round trip**: a written expression reads back as itself. -/
@[simp]
theorem ofJson?_toJson : ∀ e : Expr, ofJson? e.toJson = some e
  | .param p => by simp [toJson, ofJson?]
  | .lit l => by simp [toJson, ofJson?]
  | .member object _ _ => by
      simp [toJson, ofJson?, partsOf, Parts.expr?, List.lookup_cons, Json.str?, ofJson?_toJson object]
  | .unary _ operand _ => by
      simp [toJson, ofJson?, partsOf, Parts.expr?, List.lookup_cons, Json.choice?,
        ofJson?_toJson operand]
  | .binary _ lhs rhs _ => by
      simp [toJson, ofJson?, partsOf, Parts.expr?, List.lookup_cons, Json.choice?,
        ofJson?_toJson lhs, ofJson?_toJson rhs]
  | .call _ args _ => by
      simp [toJson, ofJson?, partsOf, partOf, Parts.list?, List.lookup_cons, Json.choice?,
        ofJsonList?_toJsonList args]
  | .ite cond thenBranch elseBranch _ => by
      simp [toJson, ofJson?, partsOf, Parts.expr?, List.lookup_cons, ofJson?_toJson cond,
        ofJson?_toJson thenBranch, ofJson?_toJson elseBranch]
  | .construct _ fields => by
      simp [toJson, ofJson?, partsOf, partOf, Parts.fields?, List.lookup_cons,
        ofJsonFields?_toJsonFields fields]
  | .tuple items => by simp [toJson, ofJson?, ofJsonList?_toJsonList items]
  | .list _ items => by
      simp [toJson, ofJson?, partsOf, partOf, Parts.list?, List.lookup_cons,
        ofJsonList?_toJsonList items]
  | .lambda _ body => by
      simp [toJson, ofJson?, partsOf, Parts.expr?, List.lookup_cons, ofJson?_toJson body]
  | .invoke callee args _ => by
      simp [toJson, ofJson?, partsOf, partOf, Parts.expr?, Parts.list?, List.lookup_cons,
        ofJson?_toJson callee, ofJsonList?_toJsonList args]

/-- Written lists of expressions read back. -/
@[simp]
theorem ofJsonList?_toJsonList : ∀ es : List Expr, ofJsonList? (toJsonList es) = some es
  | [] => by simp [toJsonList, ofJsonList?]
  | e :: es => by simp [toJsonList, ofJsonList?, ofJson?_toJson e, ofJsonList?_toJsonList es]

/-- Written fields read back. -/
@[simp]
theorem ofJsonFields?_toJsonFields :
    ∀ fs : List (String × Expr), ofJsonFields? (toJsonFields fs) = some fs
  | [] => by simp [toJsonFields, ofJsonFields?]
  | (_, e) :: fs => by
      simp [toJsonFields, ofJsonFields?, ofJson?_toJson e, ofJsonFields?_toJsonFields fs]

end

end Expr

/-! ## Functions -/

namespace Lambda

/-- Writing a function. -/
def toJson (f : Lambda) : Json :=
  .obj [("params", .arr (f.params.map Param.toJson)), ("body", f.body.toJson)]

/-- Reading a function. -/
def ofJson? (j : Json) : Option Lambda := do
  let [params, body] ← j.struct? ["params", "body"] | none
  return ⟨← Param.listOfJson? params, ← Expr.ofJson? body⟩

/-- A written function reads back as itself. -/
@[simp]
theorem ofJson?_toJson (f : Lambda) : ofJson? f.toJson = some f := by
  simp [toJson, ofJson?, Json.struct?, List.lookup_cons]

end Lambda

end RowQuery
