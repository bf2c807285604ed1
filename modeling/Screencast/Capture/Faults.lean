import Screencast.Settings.Basic

/-!
# The fault cache

Devices that faulted are left alone until a time of their own. A question about any device
forgets all entries whose time has come.
-/

namespace Screencast

/-- Device names with the time at which each may be tried again; no name stands twice. -/
structure Faults where
  entries : List (String × Micros)
  deriving DecidableEq, Inhabited

namespace Faults

def empty : Faults := ⟨[]⟩

/-- The cache with a device blocked until a time, whatever was said of it before. -/
def insert (f : Faults) (name : String) (expiry : Micros) : Faults :=
  ⟨(name, expiry) :: f.entries.filter fun e => e.1 != name⟩

/-- The cache without the entries whose time has come. -/
def purge (f : Faults) (now : Micros) : Faults := ⟨f.entries.filter fun e => now < e.2⟩

def holds (f : Faults) (name : String) : Bool := f.entries.any fun e => e.1 == name

/-- Whether a device is blocked, and the cache once expired entries are forgotten. -/
def contains (f : Faults) (now : Micros) (name : String) : Bool × Faults :=
  ((f.purge now).holds name, f.purge now)

def size (f : Faults) : Nat := f.entries.length

end Faults
end Screencast
