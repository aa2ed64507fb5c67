import Mathlib.Data.List.Basic

/-! # `utils/window.rs`

An `Instant` and a `Duration` are numbers of nanoseconds; `duration_since` does not go below
zero. The deque is a list, oldest element first. -/

namespace Degenbot

structure Window.Node (α : Type) where
  value : α
  entryTime : ℕ
deriving DecidableEq

structure Window (α : Type) where
  ttl : ℕ
  maxSize : ℕ
  minSize : ℕ
  elements : List (Window.Node α)
deriving DecidableEq

namespace Window

variable {α : Type}

def new (ttl maxSize minSize : ℕ) : Window α := ⟨ttl, maxSize, minSize, []⟩

/-- The `while` loop of `remove_stale`. -/
def popStale (ttl minSize now : ℕ) : List (Node α) → List (Node α)
  | [] => []
  | node :: elements =>
      if elements.length + 1 > minSize then
        if now - node.entryTime > ttl then popStale ttl minSize now elements
        else node :: elements
      else node :: elements

def removeStale (window : Window α) (now : ℕ) : Window α :=
  { window with elements := popStale window.ttl window.minSize now window.elements }

def add (window : Window α) (value : α) (now : ℕ) : Window α :=
  let pushed : Window α := { window with elements := window.elements ++ [⟨value, now⟩] }
  let window := pushed.removeStale now
  if window.elements.length > window.maxSize then
    { window with elements := window.elements.tail }
  else window

def oldest (window : Window α) (now : ℕ) : Option α × Window α :=
  let window := window.removeStale now
  (window.elements.head?.map Node.value, window)

def len (window : Window α) (now : ℕ) : ℕ × Window α :=
  let window := window.removeStale now
  (window.elements.length, window)

def isEmpty (window : Window α) (now : ℕ) : Bool × Window α :=
  let (length, window) := window.len now
  (length = 0, window)

end Window

end Degenbot
