/-!
# Type expressions

A `TypeExpr` is what a type declaration such as `HashMap<String, [Item; 2]>` denotes. It is used in
two ways: `render` writes it as an expression of the builder namespace `b`, and `references` lists
the declarations it mentions.

The constant that a declaration named `N` introduces is called `NSchema` (`constantName`), and a
reference to it is rendered by that very name. So the emitted text mentions a constant exactly where
the tree has a `named` leaf.
-/

namespace WireBindings

/-- The generic types that the builder offers. -/
inductive Generic where
  /-- A growable list. -/
  | vec
  /-- A map from keys to values. -/
  | hashMap
  /-- A set. -/
  | hashSet
  /-- A value that may be absent. -/
  | option
deriving DecidableEq, Repr

namespace Generic

/-- The name by which a declaration applies the generic. -/
def name : Generic → String
  | vec => "Vec"
  | hashMap => "HashMap"
  | hashSet => "HashSet"
  | option => "Option"

/-- The generic of that name. -/
def ofName? : String → Option Generic
  | "Vec" => some vec
  | "HashMap" => some hashMap
  | "HashSet" => some hashSet
  | "Option" => some option
  | _ => none

/-- The number of arguments that the generic takes. -/
def arity : Generic → Nat
  | hashMap => 2
  | vec | hashSet | option => 1

/-- The method of the builder that constructs the generic. -/
def builder : Generic → String
  | vec => "vec"
  | hashMap => "hashMap"
  | hashSet => "hashSet"
  | option => "option"

/-- A generic is found by its name and no other. -/
theorem ofName?_eq_some_iff {text : String} {generic : Generic} :
    ofName? text = some generic ↔ text = generic.name := by
  refine ⟨fun h => ?_, ?_⟩
  · unfold ofName? at h
    split at h <;> simp_all [name] <;> subst h <;> rfl
  · rintro rfl
    cases generic <;> rfl

end Generic

/-- The meaning of a type declaration. -/
inductive TypeExpr where
  /-- Text. -/
  | string
  /-- The type with a single value. -/
  | unit
  /-- A number of fixed width, such as `u8`, `i128` or `f32`. -/
  | numeric (name : String)
  /-- A generic applied to arguments. -/
  | generic (head : Generic) (arguments : List TypeExpr)
  /-- A tuple. -/
  | tuple (elements : List TypeExpr)
  /-- An array of fixed length. -/
  | array (element : TypeExpr) (length : Nat)
  /-- A reference to the declaration of that name. -/
  | named (name : String)

/-- The constant that the declaration of a type introduces. -/
def constantName (name : String) : String := name ++ "Schema"

namespace TypeExpr

mutual

/-- The builder expression for the type. -/
def render : TypeExpr → String
  | string => "b.string()"
  | unit => "b.unit()"
  | numeric name => "b." ++ name ++ "()"
  | generic head arguments => "b." ++ head.builder ++ "(" ++ renderAll arguments ++ ")"
  | tuple elements => "b.tuple([" ++ renderAll elements ++ "])"
  | array element length => "b.array(" ++ render element ++ ", " ++ toString length ++ ")"
  | named name => constantName name

/-- The builder expressions for the types, separated by commas. -/
def renderAll : List TypeExpr → String
  | [] => ""
  | [type] => render type
  | type :: next :: rest => render type ++ ", " ++ renderAll (next :: rest)

end

mutual

/-- The names at the `named` leaves, from left to right, each as often as it occurs. -/
def references : TypeExpr → List String
  | string | unit | numeric _ => []
  | generic _ arguments => referencesAll arguments
  | tuple elements => referencesAll elements
  | array element _ => references element
  | named name => [name]

/-- The names at the `named` leaves of several types. -/
def referencesAll : List TypeExpr → List String
  | [] => []
  | type :: rest => references type ++ referencesAll rest

end

mutual

/-- The names found so far, and behind them those that the type mentions besides. -/
def collect (found : List String) : TypeExpr → List String
  | string | unit | numeric _ => found
  | generic _ arguments => collectAll found arguments
  | tuple elements => collectAll found elements
  | array element _ => collect found element
  | named name => if name ∈ found then found else found ++ [name]

/-- The names found so far, and behind them those that several types mention besides. -/
def collectAll (found : List String) : List TypeExpr → List String
  | [] => found
  | type :: rest => collectAll (collect found type) rest

end

/-- The names that the type mentions, each once, in the order of their first mention. -/
def identifiers (type : TypeExpr) : List String := collect [] type

/-- The names in several types are those in each of them, one type after the other. -/
theorem referencesAll_eq_flatMap (types : List TypeExpr) :
    referencesAll types = types.flatMap references := by
  induction types with
  | nil => rfl
  | cons type rest ih => simp [referencesAll, ih]

end TypeExpr

end WireBindings
