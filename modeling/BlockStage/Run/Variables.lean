import BlockStage.Json.Value

/-!
The numbers a run keeps by name. An unknown name reads as zero.
-/

namespace BlockStage

structure Variables where
  values : Named Float

namespace Variables

/-- What every run starts with. -/
def starting : List (String × Float) :=
  [("score", 0), ("health", 100), ("lives", 3), ("coins", 0), ("timer", 0), ("level", 1)]

def startingValue (name : String) : Float := (starting.lookup name).getD 0

/-- The variables at the start of a run. -/
def initial : Variables := ⟨.ofList starting⟩

def get (v : Variables) (name : String) : Float := (v.values.get? name).getD 0

def set (v : Variables) (name : String) (value : Float) : Variables :=
  ⟨v.values.insert name value⟩

def change (v : Variables) (name : String) (amount : Float) : Variables :=
  v.set name (v.get name + amount)

/-- Back to the starting value, which is zero for a name of the scripts' own. -/
def reset (v : Variables) (name : String) : Variables := v.set name (startingValue name)

end Variables
end BlockStage
