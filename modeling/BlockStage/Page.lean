import BlockStage.Display.Instances
import BlockStage.Session
import BlockStage.Text.Blank

/-!
A session as a page shows it: a viewport, the buffers that are drawn, and after every frame a
document that says what happened in it.
-/

namespace BlockStage

open Json (Document)

/-- A text at a pixel of the viewport. -/
structure Overlay where
  object : ObjectId
  text : String
  place : Vec2
  seconds : Float32

namespace Overlay

def toDocument (o : Overlay) : Document :=
  .record [("object", o.object.toDocument), ("text", .string o.text), ("x", .single o.place.x),
    ("y", .single o.place.y), ("seconds", .single o.seconds)]

end Overlay

/-- What happened in a frame. -/
structure FrameOutput where
  notices : List Notice
  overlays : List Overlay
  running : Bool

namespace FrameOutput

def toDocument (o : FrameOutput) : Document :=
  .record [("commands", .array (o.notices.map Notice.toDocument)),
    ("overlays", .array (o.overlays.map Overlay.toDocument)), ("running", .bool o.running)]

end FrameOutput

structure Page where
  session : Session := .ofConfig {}
  instances : Display.Instances := {}
  viewport : Vec2 := ⟨1280, 720⟩
  /-- Nothing before the first frame. -/
  output : Option FrameOutput := none

namespace Page

/-- The overlay of a speech, unless its point is behind the camera. -/
def overlay? (p : Page) : Notice → Option Overlay
  | .speech object text point seconds =>
    (p.session.camera.project? point p.viewport).map fun place => ⟨object, text, place, seconds⟩
  | _ => none

def isSpeech : Notice → Bool
  | .speech .. => true
  | _ => false

/-- Turns the notices of a frame into its output. -/
def collect (p : Page) : Page :=
  let (notices, session) := p.session.drainNotices
  { p with
    session
    output := some {
      notices := notices.filter (!isSpeech ·)
      overlays := notices.filterMap p.overlay?
      running := session.isRunning } }

def redraw (p : Page) : Page :=
  { p with instances := .ofScene p.session.world.scene p.session.world.effects }

/-- A text that cannot be loaded leaves the page as it is. -/
def load (p : Page) (text : String) : Except Failure Page := do
  let session ← p.session.load text
  return { p with session }.redraw

/-- The settings of a text; the standard ones for a text that holds none. -/
def settingsOf (text : String) : Settings :=
  if text.toList.all Text.isBlank then {} else (Settings.parse? text).getD {}

def start (p : Page) (settings : String) : Page :=
  { p with session := p.session.start (settingsOf settings) }.collect

def stop (p : Page) : Page := { p with session := p.session.stop }.redraw.collect

def tick (p : Page) (dt : Float32) : Page :=
  { p with session := p.session.tick dt }.redraw.collect

def receive (p : Page) (event : InputEvent) : Page :=
  { p with session := p.session.receive event }

/-- Takes on the size of a viewport, unless a side is zero or below. -/
def resize (p : Page) (width height : Float32) : Page :=
  if width ≤ 0 || height ≤ 0 then p
  else
    { p with
      viewport := ⟨width, height⟩
      session := { p.session with camera := p.session.camera.resize width height } }

/-- The output as a document; before the first frame, an empty one. -/
def outputDocument (p : Page) : Document :=
  match p.output with
  | none => .record []
  | some output => output.toDocument

end Page
end BlockStage
