import Screencast.Display.Registry
import Screencast.Settings.Document

/-!
# Sources of frames

Which source of frames is asked for and which one that comes to. Without a desktop to capture only
the test pattern is to be had, and one display stands for it.
-/

namespace Screencast

/-- The sources that can be asked for. -/
inductive Backend where
  | auto
  | dxgi
  | gdi
  | synthetic
  deriving DecidableEq, Inhabited

namespace Backend

def name : Backend → String
  | auto => "auto"
  | dxgi => "dxgi"
  | gdi => "gdi"
  | synthetic => "synthetic"

def ofName? (s : String) : Option Backend :=
  [auto, dxgi, gdi, synthetic].find? fun b => b.name == s

def resolve : Backend → Backend
  | auto => synthetic
  | b => b

/-- The name of the source once it is made, if it is to be had. -/
def create (b : Backend) : Except StreamError String :=
  match b.resolve with
  | synthetic => .ok synthetic.name
  | gdi => .error (.backendUnavailable gdi.name)
  | _ => .error (.backendUnavailable dxgi.name)

def syntheticDisplay : Display :=
  ⟨"SYNTHETIC1", "Synthetic Display", ⟨0, 0, 1920, 1080⟩, true, .ofFloat 1.0⟩

/-- The displays that a source can capture. -/
def displays (_ : Backend) : List Display := [syntheticDisplay]

end Backend

def Document.backend {α : Type} [Document α] (v : α) : Option Backend := (choice v).bind Backend.ofName?

end Screencast
