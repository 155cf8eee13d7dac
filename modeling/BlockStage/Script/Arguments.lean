import BlockStage.Palette.Parameter

/-!
The arguments of a block, by parameter name, and typed reads from them. A read of a missing
argument, or of one of another kind, gives a fallback.
-/

namespace BlockStage

abbrev Arguments := Named Argument

/-- What reads give in place of what is not there, by name. -/
structure Fallback where
  number : String → Float
  text : String → String
  color : String → Vec3

namespace Fallback

/-- Zero, no text, and white, whatever the name. -/
def standard : Fallback := ⟨fun _ => 0, fun _ => "", fun _ => .one⟩

end Fallback

structure ArgumentReader where
  arguments : Arguments
  fallback : Fallback

namespace ArgumentReader

def number (r : ArgumentReader) (name : String) : Float :=
  match r.arguments.get? name with
  | some (.number x) => x
  | _ => r.fallback.number name

def text (r : ArgumentReader) (name : String) : String :=
  match r.arguments.get? name with
  | some (.text s) => s
  | _ => r.fallback.text name

def color (r : ArgumentReader) (name : String) : Vec3 :=
  match r.arguments.get? name with
  | some (.color rgb) => rgb
  | _ => r.fallback.color name

def single (r : ArgumentReader) (name : String) : Float32 := Scalar.narrow (r.number name)

/-- The arguments `x`, `y` and `z`. -/
def point (r : ArgumentReader) : Vec3 := ⟨r.single "x", r.single "y", r.single "z"⟩

end ArgumentReader
end BlockStage
