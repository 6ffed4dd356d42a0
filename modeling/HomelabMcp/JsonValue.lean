import HomelabMcp.Text

/-!
# JSON values

The values of serde_json and the accessors the program uses.  A number is an unsigned integer, a
negative integer, or a double given by its bits.  Objects are lists of members in key order.
-/

namespace Json

/-- The numbers of `serde_json`. -/
inductive Number where
  | posInt (n : UInt64)
  | negInt (n : Int64)
  | float (bits : UInt64)
  deriving DecidableEq

/-- The values of `serde_json`, the members of an object in their order. -/
inductive Value where
  | null
  | bool (b : Bool)
  | number (n : Number)
  | string (s : String)
  | array (items : List Value)
  | object (members : List (String × Value))

namespace Value

/-- A natural number below 2^64. -/
def nat (n : UInt64) : Value := number (.posInt n)

/-- A text that may be missing. -/
def ofOption : Option String → Value
  | some s => string s
  | none => null

/-- `Value::as_str`. -/
def asStr : Value → Option String
  | string s => some s
  | _ => none

/-- `Value::as_bool`. -/
def asBool : Value → Option Bool
  | bool b => some b
  | _ => none

/-- `Value::as_u64`. -/
def asU64 : Value → Option UInt64
  | number (.posInt n) => some n
  | _ => none

/-- The integer of a number that fits 64 bits with a sign. -/
def asI64 : Value → Option Int
  | number (.posInt n) => if n.toNat < 2 ^ 63 then some n.toNat else none
  | number (.negInt n) => some n.toInt
  | _ => none

/-- `Value::as_array`. -/
def asArray : Value → Option (List Value)
  | array items => some items
  | _ => none

/-- `Value::as_object`. -/
def asObject : Value → Option (List (String × Value))
  | object members => some members
  | _ => none

/-- `Value::is_null`. -/
def isNull : Value → Bool
  | null => true
  | _ => false

/-- A boolean is the one value that is read as it. -/
@[simp] theorem asBool_eq_some {v : Value} {b : Bool} : v.asBool = some b ↔ v = bool b := by
  cases v <;> simp [asBool]

/-- So is a text. -/
theorem asStr_eq_some {v : Value} {s : String} : v.asStr = some s ↔ v = .string s := by
  cases v <;> simp [asStr]

/-- So is an array. -/
theorem asArray_eq_some {v : Value} {items : List Value} :
    v.asArray = some items ↔ v = .array items := by
  cases v <;> simp [asArray]

/-- And an object. -/
theorem asObject_eq_some {v : Value} {members : List (String × Value)} :
    v.asObject = some members ↔ v = .object members := by
  cases v <;> simp [asObject]

/-- The member of an object under a key. -/
def get (v : Value) (key : String) : Option Value :=
  match v with
  | object members => members.lookup key
  | _ => none

/-- `value[key]`: the member, or null. -/
def field (v : Value) (key : String) : Value := (v.get key).getD null

/-- The members with one set, in the order of the keys. -/
def setMember (key : String) (value : Value) : List (String × Value) → List (String × Value)
  | [] => [(key, value)]
  | (k, v) :: rest =>
      if key < k then (key, value) :: (k, v) :: rest
      else if key = k then (key, value) :: rest
      else (k, v) :: setMember key value rest

/-- `value[key] = …` for an object. -/
def set (v : Value) (key : String) (value : Value) : Value :=
  match v with
  | object members => object (setMember key value members)
  | other => other

/-- Setting one member leaves the others. -/
theorem lookup_setMember_ne {key k : String} (h : k ≠ key) (value : Value)
    (members : List (String × Value)) :
    (setMember key value members).lookup k = members.lookup k := by
  induction members with
  | nil => rw [setMember, List.lookup_cons, beq_false_of_ne h]
  | cons member rest ih =>
      unfold setMember
      split_ifs with hlt heq
      · rw [List.lookup_cons, beq_false_of_ne h]
      · subst heq
        rw [List.lookup_cons, List.lookup_cons, beq_false_of_ne h]
      · rw [List.lookup_cons, List.lookup_cons, ih]

/-- And gives that one its value. -/
theorem lookup_setMember_self (key : String) (value : Value) (members : List (String × Value)) :
    (setMember key value members).lookup key = some value := by
  induction members with
  | nil => exact List.lookup_cons_self
  | cons member rest ih =>
      unfold setMember
      split_ifs with hlt heq
      · exact List.lookup_cons_self
      · exact List.lookup_cons_self
      · rw [List.lookup_cons, beq_false_of_ne heq, ih]

/-- The same for a value that is an object. -/
theorem field_set_self (key : String) (members : List (String × Value)) (value : Value) :
    ((object members).set key value).field key = value := by
  simp [set, field, get, lookup_setMember_self]

/-- And for its other members. -/
@[simp] theorem field_set_ne {key k : String} (h : k ≠ key) (v value : Value) :
    (v.set key value).field k = v.field k := by
  cases v with
  | object members => simp [set, field, get, lookup_setMember_ne h]
  | _ => rfl

/-- An array index as a pointer writes it: digits without a leading zero. -/
def parseIndex (token : List Char) : Option Nat :=
  if token.isEmpty || !token.all Char.isDigit || (token.head? == some '0' && token.length != 1)
  then none
  else some (token.foldl (fun n c => 10 * n + (c.toNat - 48)) 0)

/-- `~1` is a slash and `~0` a tilde. -/
def unescape : List Char → List Char
  | '~' :: '1' :: rest => '/' :: unescape rest
  | '~' :: '0' :: rest => '~' :: unescape rest
  | c :: rest => c :: unescape rest
  | [] => []

/-- One step down: a key of an object or an index of an array. -/
def child (v : Value) (token : List Char) : Option Value :=
  match v with
  | object members => members.lookup (String.ofList (unescape token))
  | array items => (parseIndex (unescape token)).bind fun i => items[i]?
  | _ => none

/-- The value below some tokens. -/
def walk : Value → List (List Char) → Option Value
  | v, [] => some v
  | v, token :: rest => (v.child token).bind fun w => walk w rest

/-- A JSON pointer. -/
def pointer (v : Value) (path : String) : Option Value :=
  match path.toList with
  | [] => some v
  | '/' :: rest => walk v (Text.pieces (· == '/') rest)
  | _ => none

example : (object [("a", array [null, object [("b/c", bool true)]])]).pointer "/a/1/b~1c"
    = some (bool true) := rfl

end Value

end Json
