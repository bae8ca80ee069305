import VirtualPad.Layout.Basic

/-!
# Visiting controls

A visit goes through the controls of a layout in their order and shows a visitor those that are
in the scope and of the categories asked for, until the visitor stops. The visitor has a state of
its own.
-/
namespace VirtualPad

namespace Control

inductive Scope where
  | all
  | atOffset (offset : UInt32)
  | withId (category : Category) (ordinal : UInt8)
  deriving DecidableEq

def Scope.contains (s : Scope) (c : Control) : Bool :=
  match s with
  | .all => true
  | .atOffset offset => c.offset = offset
  | .withId category ordinal => c.category = category && c.ordinal = ordinal

structure Mask where
  axes : Bool
  povs : Bool
  buttons : Bool
  deriving DecidableEq

namespace Mask

def none : Mask := ⟨false, false, false⟩
def all : Mask := ⟨true, true, true⟩
def axesOnly : Mask := ⟨true, false, false⟩
def povsOnly : Mask := ⟨false, true, false⟩
def buttonsOnly : Mask := ⟨false, false, true⟩

def contains (m : Mask) : Category → Bool
  | .axis => m.axes
  | .pov => m.povs
  | .button => m.buttons

def union (m n : Mask) : Mask :=
  ⟨m.axes || n.axes, m.povs || n.povs, m.buttons || n.buttons⟩

theorem contains_union (m n : Mask) (c : Category) :
    (m.union n).contains c = (m.contains c || n.contains c) := by
  cases c <;> rfl

end Mask
end Control

inductive Flow where
  | proceed
  | stop
  deriving DecidableEq

namespace Layout

def selects (scope : Control.Scope) (mask : Control.Mask) (c : Control) : Bool :=
  mask.contains c.category && scope.contains c

def visitControls {σ : Type} (selected : Control → Bool) (visitor : Control → σ → σ × Flow) :
    List Control → σ → σ × Flow
  | [], s => (s, .proceed)
  | c :: cs, s =>
    if selected c then
      match visitor c s with
      | (s, .stop) => (s, .stop)
      | (s, .proceed) => visitControls selected visitor cs s
    else visitControls selected visitor cs s

def visit {σ : Type} (l : Layout) (scope : Control.Scope) (mask : Control.Mask)
    (visitor : Control → σ → σ × Flow) (s : σ) : σ × Flow :=
  visitControls (selects scope mask) visitor l.controls s

end Layout
end VirtualPad
