/-!
The vocabulary of operations that blocks stand for: hats that start a script, commands, containers
and reporters.
-/

namespace BlockStage

inductive Opcode
  | onStart
  | onClick
  | onKey
  | onCollide
  | onTimer
  | onMessage
  | onHealthZero
  | onEnemyDefeated
  | onItemCollected
  | onLevelStart
  | onTimerDone
  | onLivesZero
  | defineBlock
  | broadcast
  | move
  | setPosition
  | rotate
  | setRotation
  | glide
  | smoothMove
  | lookAtPlayer
  | teleportPlayer
  | setSpawnPoint
  | launchPlayer
  | setColor
  | setOpacity
  | appear
  | vanish
  | setScale
  | changeScale
  | say
  | spin
  | bounce
  | patrol
  | followPlayer
  | colorShift
  | gravity
  | orbit
  | scalePulse
  | particles
  | trail
  | stopParticles
  | stopEffects
  | wait
  | waitUntil
  | repeatTimes
  | forever
  | ifThen
  | ifElse
  | whileHolds
  | forEach
  | stop
  | callBlock
  | setVar
  | changeVar
  | resetVar
  | showVar
  | varValue
  | randomNumber
  | playSound
  | playTone
  | showMessage
  | spawnObject
  | duplicate
  | destroy
  | damage
  | heal
  | addScore
  | collectItem
  | defeatEnemy
  | loseLife
  | startTimer
  | setPlayerSpeed
  | setJumpForce
deriving DecidableEq

namespace Opcode

/-- The name under which documents know the operation. -/
def name : Opcode → String
  | onStart => "onStart"
  | onClick => "onClick"
  | onKey => "onKey"
  | onCollide => "onCollide"
  | onTimer => "onTimer"
  | onMessage => "onMessage"
  | onHealthZero => "onHealthZero"
  | onEnemyDefeated => "onEnemyDefeated"
  | onItemCollected => "onItemCollected"
  | onLevelStart => "onLevelStart"
  | onTimerDone => "onTimerDone"
  | onLivesZero => "onLivesZero"
  | defineBlock => "defineBlock"
  | broadcast => "broadcast"
  | move => "move"
  | setPosition => "setPosition"
  | rotate => "rotate"
  | setRotation => "setRotation"
  | glide => "glide"
  | smoothMove => "smoothMove"
  | lookAtPlayer => "lookAtPlayer"
  | teleportPlayer => "teleportPlayer"
  | setSpawnPoint => "setSpawnPoint"
  | launchPlayer => "launchPlayer"
  | setColor => "setColor"
  | setOpacity => "setOpacity"
  | appear => "show"
  | vanish => "hide"
  | setScale => "setScale"
  | changeScale => "changeScale"
  | say => "say"
  | spin => "spin"
  | bounce => "bounce"
  | patrol => "patrol"
  | followPlayer => "followPlayer"
  | colorShift => "colorShift"
  | gravity => "gravity"
  | orbit => "orbit"
  | scalePulse => "scalePulse"
  | particles => "particles"
  | trail => "trail"
  | stopParticles => "stopParticles"
  | stopEffects => "stopEffects"
  | wait => "wait"
  | waitUntil => "waitUntil"
  | repeatTimes => "repeat"
  | forever => "forever"
  | ifThen => "if"
  | ifElse => "ifElse"
  | whileHolds => "while"
  | forEach => "forEach"
  | stop => "stop"
  | callBlock => "callBlock"
  | setVar => "setVar"
  | changeVar => "changeVar"
  | resetVar => "resetVar"
  | showVar => "showVar"
  | varValue => "varValue"
  | randomNumber => "randomNumber"
  | playSound => "playSound"
  | playTone => "playTone"
  | showMessage => "showMessage"
  | spawnObject => "spawnObject"
  | duplicate => "clone"
  | destroy => "destroy"
  | damage => "damage"
  | heal => "heal"
  | addScore => "addScore"
  | collectItem => "collectItem"
  | defeatEnemy => "defeatEnemy"
  | loseLife => "loseLife"
  | startTimer => "startTimer"
  | setPlayerSpeed => "setPlayerSpeed"
  | setJumpForce => "setJumpForce"

def all : List Opcode := [
  onStart, onClick, onKey, onCollide, onTimer, onMessage, onHealthZero, onEnemyDefeated,
  onItemCollected, onLevelStart, onTimerDone, onLivesZero, defineBlock, broadcast, move,
  setPosition, rotate, setRotation, glide, smoothMove, lookAtPlayer, teleportPlayer,
  setSpawnPoint, launchPlayer, setColor, setOpacity, appear, vanish, setScale, changeScale, say,
  spin, bounce, patrol, followPlayer, colorShift, gravity, orbit, scalePulse, particles, trail,
  stopParticles, stopEffects, wait, waitUntil, repeatTimes, forever, ifThen, ifElse, whileHolds,
  forEach, stop, callBlock, setVar, changeVar, resetVar, showVar, varValue, randomNumber,
  playSound, playTone, showMessage, spawnObject, duplicate, destroy, damage, heal, addScore,
  collectItem, defeatEnemy, loseLife, startTimer, setPlayerSpeed, setJumpForce]

def ofName? (s : String) : Option Opcode := all.find? (·.name = s)

end Opcode
end BlockStage
