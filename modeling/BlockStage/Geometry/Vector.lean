/-!
Vectors of singles. Every operation rounds once for each arithmetic step, in the written order.
-/

namespace BlockStage

structure Vec2 where
  x : Float32
  y : Float32

structure Vec3 where
  x : Float32
  y : Float32
  z : Float32

structure Vec4 where
  x : Float32
  y : Float32
  z : Float32
  w : Float32

namespace Vec2

instance : Add Vec2 where
  add a b := ⟨a.x + b.x, a.y + b.y⟩

def zero : Vec2 := ⟨0, 0⟩

end Vec2

namespace Vec3

def splat (s : Float32) : Vec3 := ⟨s, s, s⟩

def zero : Vec3 := splat 0

def one : Vec3 := splat 1

/-- The upward direction. -/
def up : Vec3 := ⟨0, 1, 0⟩

instance : Inhabited Vec3 := ⟨zero⟩

instance : Add Vec3 where
  add a b := ⟨a.x + b.x, a.y + b.y, a.z + b.z⟩

instance : Sub Vec3 where
  sub a b := ⟨a.x - b.x, a.y - b.y, a.z - b.z⟩

instance : HMul Vec3 Float32 Vec3 where
  hMul v s := ⟨v.x * s, v.y * s, v.z * s⟩

instance : HDiv Vec3 Float32 Vec3 where
  hDiv v s := ⟨v.x / s, v.y / s, v.z / s⟩

/-- Component by component. -/
def map (f : Float32 → Float32) (v : Vec3) : Vec3 := ⟨f v.x, f v.y, f v.z⟩

/-- Component by component. -/
def times (a b : Vec3) : Vec3 := ⟨a.x * b.x, a.y * b.y, a.z * b.z⟩

def toList (v : Vec3) : List Float32 := [v.x, v.y, v.z]

def dot (a b : Vec3) : Float32 := (a.x * b.x + a.y * b.y) + a.z * b.z

def cross (a b : Vec3) : Vec3 :=
  ⟨a.y * b.z - b.y * a.z, a.z * b.x - b.z * a.x, a.x * b.y - b.x * a.y⟩

def length (v : Vec3) : Float32 := (dot v v).sqrt

def distance (a b : Vec3) : Float32 := (a - b).length

def normalize (v : Vec3) : Vec3 := v * (1 / v.length)

/-- The direction of `v`; zero if `v` is too short or too long to have one. -/
def direction (v : Vec3) : Vec3 :=
  let scale := 1 / v.length
  if scale.isFinite && 0 < scale then v * scale else zero

/-- The greater of two components, the second unless the first is above it. -/
def greater (a b : Float32) : Float32 := if b < a then a else b

/-- The lesser of two components, the second unless the first is below it. -/
def lesser (a b : Float32) : Float32 := if a < b then a else b

def clampUnit (v : Vec3) : Vec3 := v.map fun s => lesser (greater s 0) 1

def greatest (v : Vec3) : Float32 := greater v.x (greater v.y v.z)

def least (v : Vec3) : Float32 := lesser v.x (lesser v.y v.z)

end Vec3

/-- One of the three world axes. -/
inductive Axis
  | x
  | y
  | z
deriving DecidableEq

namespace Axis

def name : Axis → String
  | x => "x"
  | y => "y"
  | z => "z"

def all : List Axis := [x, y, z]

/-- The axis of that name; every other text means the vertical one. -/
def ofName (s : String) : Axis := (all.find? (·.name = s)).getD y

def index : Axis → Nat
  | x => 0
  | y => 1
  | z => 2

/-- One component of a vector. -/
def get (v : Vec3) : Axis → Float32
  | x => v.x
  | y => v.y
  | z => v.z

/-- The vector with one component replaced. -/
def set (v : Vec3) (value : Float32) : Axis → Vec3
  | x => { v with x := value }
  | y => { v with y := value }
  | z => { v with z := value }

end Axis
end BlockStage
