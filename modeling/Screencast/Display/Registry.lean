import Screencast.Display.Basic
import Screencast.Error

/-!
# The display registry

The attached displays and the one that is captured. The list is replaced by an enumeration; one
that failed changes nothing. The selection follows its device name into the new list. If the
device is gone, a plain reload leaves nothing selected, and the handling of changed settings falls
back to the primary display.
-/

namespace Screencast

/-- What a system answers when asked for its displays. -/
abbrev Enumeration := Except StreamError (List Display)

/-- The enumeration of a system with these displays; one without any is an error. -/
def enumerate (attached : List Display) : Enumeration :=
  if attached.isEmpty then .error .noDisplays else .ok attached

def findDisplay (name : String) (l : List Display) : Option Display := l.find? fun d => d.name == name

/-- The display flagged as primary, or else the first. -/
def primaryDisplay (l : List Display) : Option Display := (l.find? Display.isPrimary).or l.head?

/-- The attached displays and the selected one. -/
structure Registry where
  displays : List Display
  selected : Option Display
  deriving DecidableEq, Inhabited

namespace Registry

def empty : Registry := ⟨[], none⟩

/-- The selected device in another list. -/
def kept (r : Registry) (l : List Display) : Option Display :=
  r.selected.bind fun d => findDisplay d.name l

/-- The registry after an enumeration; a selected device that is gone is selected no more. -/
def reload (r : Registry) : Enumeration → Registry
  | .error _ => r
  | .ok l => ⟨l, r.kept l⟩

/-- The registry after the display settings changed; a selected device that is gone gives way to
the primary display. -/
def settingsChanged (r : Registry) : Enumeration → Registry
  | .error _ => r
  | .ok l => ⟨l, (r.kept l).or (primaryDisplay l)⟩

def ofEnumeration (answer : Enumeration) : Registry := empty.reload answer

def find? (r : Registry) (name : String) : Option Display := findDisplay name r.displays

def primary (r : Registry) : Option Display := primaryDisplay r.displays

/-- The registry with the primary display selected if nothing is. -/
def selectPrimary (r : Registry) : Registry := { r with selected := r.selected.or r.primary }

/-- The selected display, the primary one selected first if nothing is; and the registry then. -/
def selectedOrPrimary (r : Registry) : Option Display × Registry :=
  let r := r.selectPrimary
  (r.selected, r)

/-- The registry with the display of this name selected, and that display. -/
def select (r : Registry) (name : String) : Except StreamError (Display × Registry) :=
  match r.find? name with
  | some d => .ok (d, { r with selected := some d })
  | none => .error (.displayNotFound name)

def virtualBounds (r : Registry) : Area := Area.span (r.displays.map Display.area)

end Registry
end Screencast
