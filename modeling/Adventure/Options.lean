/-!
How a document is read: how deep it may nest, which names the game engine supplies, and whether
names that nothing defines are reported. Options can be made from settings, the shape that a
configuration file has, by name or by place.
-/

namespace Adventure

structure Options where
  maxDepth : Nat
  intrinsics : List String
  analyze : Bool
deriving DecidableEq

namespace Options

def defaultIntrinsics : List String :=
  ["D_NORTH", "D_SOUTH", "D_EAST", "D_WEST", "D_NORTHEAST", "D_NORTHWEST", "D_SOUTHEAST",
   "D_SOUTHWEST", "D_UP", "D_DOWN", "D_IN", "D_OUT", "print", "println", "input", "random",
   "strlen", "substr", "move", "has"]

def default : Options := ⟨200, defaultIntrinsics, true⟩

def withoutAnalysis : Options := { default with analyze := false }

def isIntrinsic (options : Options) (name : String) : Bool := options.intrinsics.contains name

end Options

/-- A setting. Numbers are naturals, written in digits alone, or of no further interest. -/
inductive Setting
  | null
  | flag (value : Bool)
  | natural (value : Nat)
  | number
  | text (value : String)
  | list (items : List Setting)
  | record (fields : List (String × Setting))
deriving Inhabited

namespace Setting

/-- Numbers are kept in 64 bits. -/
def natural? : Setting → Option Nat
  | .natural value => if value < 18446744073709551616 then some value else none
  | _ => none

def flag? : Setting → Option Bool
  | .flag value => some value
  | _ => none

def text? : Setting → Option String
  | .text value => some value
  | _ => none

def texts? : Setting → Option (List String)
  | .list items => items.mapM text?
  | _ => none

def readOr {α : Type} (fallback : α) (read? : Setting → Option α) : Option Setting → Option α
  | none => some fallback
  | some value => read? value

end Setting

namespace Options

/-- Options whose fields are read one by one; a field that is there and cannot be read makes them
all unreadable. -/
def ofFields? (maxDepth intrinsics analyze : Option Setting) : Option Options := do
  let maxDepth ← Setting.readOr default.maxDepth Setting.natural? maxDepth
  let intrinsics ← Setting.readOr default.intrinsics Setting.texts? intrinsics
  let analyze ← Setting.readOr default.analyze Setting.flag? analyze
  return ⟨maxDepth, intrinsics, analyze⟩

/-- Options from a record of settings, whose fields with other names are ignored, or from a list of
settings in the order of the fields, which may end early but holds no more. -/
def ofSetting? : Setting → Option Options
  | .record fields =>
      ofFields? (fields.lookup "max_depth") (fields.lookup "intrinsics") (fields.lookup "analyze")
  | .list items =>
      if items.length ≤ 3 then ofFields? items[0]? items[1]? items[2]? else none
  | _ => none

end Options

end Adventure
