/-! Spans are half-open ranges of character offsets. A span always starts at or
before its stop; signed bounds are checked when a span is built from them. -/
namespace OverrideLint

structure Span where
  start : Nat
  stop : Nat
  start_le_stop : start ≤ stop
deriving DecidableEq

namespace Span

/-- Bounds that enclose no span. -/
structure Invalid where
  start : Int
  stop : Int
deriving DecidableEq, Repr

def Invalid.message (bounds : Invalid) : String :=
  s!"invalid span [{bounds.start}, {bounds.stop})"

def ofBounds (start stop : Int) : Except Invalid Span :=
  if h : 0 ≤ start ∧ start ≤ stop then .ok ⟨start.toNat, stop.toNat, by omega⟩
  else .error ⟨start, stop⟩

/-- The empty span at an offset. -/
def empty (offset : Nat) : Span := ⟨offset, offset, Nat.le_refl _⟩

def shift (span : Span) (offset : Nat) : Span :=
  ⟨offset + span.start, offset + span.stop, Nat.add_le_add_left span.start_le_stop _⟩

def width (span : Span) : Nat := span.stop - span.start

def contains (outer inner : Span) : Bool :=
  outer.start ≤ inner.start && inner.stop ≤ outer.stop

def overlaps (a b : Span) : Bool :=
  a.start < b.stop && b.start < a.stop

/-- Spans are ordered by start, then by stop. -/
def le (a b : Span) : Bool :=
  a.start < b.start || (a.start == b.start && a.stop ≤ b.stop)

def lt (a b : Span) : Bool :=
  a.start < b.start || (a.start == b.start && a.stop < b.stop)

@[ext]
theorem ext {a b : Span} (hstart : a.start = b.start) (hstop : a.stop = b.stop) : a = b := by
  cases a; cases b; cases hstart; cases hstop; rfl

theorem ofBounds_natCast {start stop : Nat} (h : start ≤ stop) :
    ofBounds start stop = .ok ⟨start, stop, h⟩ := by
  have hb : (0 : Int) ≤ (start : Int) ∧ (start : Int) ≤ (stop : Int) := by omega
  simp [ofBounds, hb]

theorem overlaps_comm (a b : Span) : a.overlaps b = b.overlaps a := by
  simp [overlaps, Bool.and_comm]

end Span
end OverrideLint
