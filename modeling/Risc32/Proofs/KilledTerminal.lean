import Risc32.Peripheral
import Risc32.Proofs.Controller.Refusals
import Risc32.Proofs.Controller.Runs

namespace Risc32

/-- Nothing has been executed between the machines. They differ at most in what reaches a machine that is
    never stepped: in what waits on the interrupt line, in the clock, the journal and the breakpoints. -/
def Machine.Idles {δ : Type} (before after : Machine δ) : Prop :=
  ∃ line now journal breakpoints,
    after = { before with
      bus := { before.bus with line := line, now := now, journal := journal }
      breakpoints := breakpoints }

namespace Machine.Idles

variable {δ : Type} {before middle after : Machine δ}

theorem refl (m : Machine δ) : Idles m m :=
  ⟨m.bus.line, m.bus.now, m.bus.journal, m.breakpoints, rfl⟩

theorem trans (hfirst : Idles before middle) (hsecond : Idles middle after) : Idles before after := by
  obtain ⟨_, _, _, _, rfl⟩ := hfirst
  obtain ⟨line, now, journal, breakpoints, rfl⟩ := hsecond
  exact ⟨line, now, journal, breakpoints, rfl⟩

theorem noteAll (h : Idles before after) (notices : List Notice) : Idles before (after.noteAll notices) := by
  obtain ⟨line, now, journal, breakpoints, rfl⟩ := h
  exact ⟨line, now, notices ++ journal, breakpoints, rfl⟩

theorem raise (m : Machine δ) (index : Word) : Idles m (m.raise index) :=
  ⟨m.bus.line.raise index, m.bus.now, m.bus.journal, m.breakpoints, rfl⟩

theorem wait (m : Machine δ) (microseconds : Nat) : Idles m (m.wait microseconds) :=
  ⟨m.bus.line, m.bus.now + microseconds, m.bus.journal, m.breakpoints, rfl⟩

end Machine.Idles

namespace Controller

variable {δ : Type}

variable [Device δ]

end Controller

end Risc32
