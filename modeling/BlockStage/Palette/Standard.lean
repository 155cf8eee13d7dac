import BlockStage.Palette.Entry

/-!
The standard palette. Every operation has one block, named like the operation.
-/

namespace BlockStage.Palette

/-- The conditions that `if`, `ifElse`, `while` and `waitUntil` ask. -/
def conditionNames : List String :=
  ["nearPlayer", "farFromPlayer", "keyPressed", "anyKey", "variable", "chance"]

/-- The comparisons of a variable with a value, in print and as typed. -/
def operatorNames : List String := ["=", "<", ">", "≠", "≤", "≥", "==", "!=", "<=", ">="]

def axisNames : List String := Axis.all.map Axis.name

def number (name : String) (default : Float) : Parameter := ⟨name, .number default⟩

def text (name default : String) : Parameter := ⟨name, .text default⟩

def choice (name : String) (options : List String) (default : String) : Parameter :=
  ⟨name, .choice options default⟩

def color (name : String) (packed : Nat) : Parameter := ⟨name, .color packed⟩

def point (x y z : Float) : List Parameter := [number "x" x, number "y" y, number "z" z]

def condition : List Parameter :=
  [choice "condition" conditionNames "nearPlayer", number "distance" 3, text "key" "space",
    text "var" "score", choice "op" operatorNames ">", number "value" 0, number "percent" 50]

def define (category : Category) (kind : BlockKind) (op : Opcode) (parameters : List Parameter) :
    Entry :=
  ⟨op.name, category, kind, parameters, op⟩

def hat (op : Opcode) (parameters : List Parameter) : Entry := define .events .hat op parameters

def command (category : Category) (op : Opcode) (parameters : List Parameter) : Entry :=
  define category .command op parameters

def container (op : Opcode) (parameters : List Parameter) : Entry :=
  define .control .container op parameters

def standardEntries : List Entry := [
  hat .onStart [],
  hat .onClick [],
  hat .onKey [text "key" "space"],
  hat .onCollide [text "object" "any"],
  hat .onTimer [number "seconds" 1],
  hat .onMessage [text "msg" "go"],
  hat .onHealthZero [],
  hat .onEnemyDefeated [],
  hat .onItemCollected [],
  hat .onLevelStart [],
  hat .onTimerDone [],
  hat .onLivesZero [],
  define .custom .hat .defineBlock [text "name" "myBlock"],
  command .events .broadcast [text "msg" "go"],
  command .motion .move (point 0 0 0),
  command .motion .setPosition (point 0 0 0),
  command .motion .rotate (point 0 45 0),
  command .motion .setRotation (point 0 0 0),
  command .motion .glide (point 0 0 0 ++ [number "seconds" 1]),
  command .motion .smoothMove (point 0 0 0 ++ [number "seconds" 1]),
  command .motion .lookAtPlayer [],
  command .motion .teleportPlayer (point 0 2 0),
  command .motion .setSpawnPoint [],
  command .motion .launchPlayer [number "force" 15],
  command .looks .setColor [color "color" 0xff0000],
  command .looks .setOpacity [number "value" 1],
  command .looks .appear [],
  command .looks .vanish [],
  command .looks .setScale (point 1 1 1),
  command .looks .changeScale [number "factor" 1.5],
  command .looks .say [text "text" "Hello!", number "seconds" 2],
  command .effects .spin [choice "axis" axisNames "y", number "speed" 2],
  command .effects .bounce [number "height" 1, number "speed" 3],
  command .effects .patrol [choice "axis" axisNames "x", number "distance" 3, number "speed" 1],
  command .effects .followPlayer [number "speed" 2],
  command .effects .colorShift [number "speed" 0.5],
  command .effects .gravity [],
  command .effects .orbit [number "radius" 3, number "speed" 1],
  command .effects .scalePulse [number "min" 0.8, number "max" 1.2, number "speed" 2],
  command .effects .particles [color "color" 0xffd700, number "count" 20],
  command .effects .trail [color "color" 0x66ccff],
  command .effects .stopParticles [],
  command .effects .stopEffects [],
  command .control .wait [number "seconds" 1],
  command .control .waitUntil condition,
  container .repeatTimes [number "times" 10],
  container .forever [],
  container .ifThen condition,
  container .ifElse condition,
  container .whileHolds condition,
  container .forEach [text "var" "i", number "start" 1, number "end" 10],
  command .control .stop [],
  command .custom .callBlock [text "name" "myBlock"],
  command .vars .setVar [text "var" "score", number "value" 0],
  command .vars .changeVar [text "var" "score", number "amount" 1],
  command .vars .resetVar [text "var" "score"],
  command .vars .showVar [text "var" "score"],
  define .vars .reporter .varValue [text "var" "score"],
  define .vars .reporter .randomNumber [number "min" 1, number "max" 10],
  command .sound .playSound [text "sound" "pop"],
  command .sound .playTone [number "frequency" 440, number "seconds" 0.3],
  command .ui .showMessage [text "text" "Hello!", number "seconds" 2],
  command .objects .spawnObject (text "shape" "box" :: point 0 5 0),
  command .objects .duplicate [],
  command .objects .destroy [],
  command .game .damage [number "amount" 10],
  command .game .heal [number "amount" 10],
  command .game .addScore [number "amount" 10],
  command .game .collectItem [],
  command .game .defeatEnemy [],
  command .game .loseLife [],
  command .game .startTimer [number "seconds" 60],
  command .game .setPlayerSpeed [number "speed" 8],
  command .game .setJumpForce [number "force" 12]]

def standard : Palette := ⟨standardEntries⟩

end BlockStage.Palette
