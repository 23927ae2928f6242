import Risc32.Peripheral
import Risc32.Proofs.Machine.Places

/-!
A word store that faults does not tear main memory. The bytes of a word are stored from the highest address
down, so that those stored before the one that faults lie above it: behind the gap, where main memory has
ended. Only a word that wraps around the end of the physical addresses has bytes of main memory above the
gap, and none does when the windows at the top of the map are as wide as the rest of a word.
-/

namespace Risc32

namespace Machine

variable {δ : Type} {m : Machine δ} {address : Word}

/-- Above a byte that lies in the gap, a word has no byte in main memory, unless it wraps in between. -/
theorem not_inMain_of_inGap {i j : Nat} (hle : i ≤ j) (hj : j < 4) (hgap : m.InGap (m.place address i))
    (hwrap : m.place address 0 + 3 < addressCount ∨ 3 ≤ m.layout.romSize + m.layout.mmioSize) :
    ¬ m.InMain (m.place address j) := by
  have hstart := m.layout.romStart_add
  have hbelow := hgap.2
  have hfits : m.place address i + (j - i) < addressCount := by
    rcases hwrap with hplace | hreserved
    · have hplaces : m.place address i = m.place address 0 + (i - 0) :=
        place_of_le (Nat.zero_le i) (by omega)
      omega
    · omega
  intro hmain
  have hend := hmain.1
  rw [place_of_le hle hfits] at hend
  have hbegin := hgap.1
  omega

variable [Device δ]

/-- Bytes that do not lie in main memory are stored without changing it. -/
theorem writeEach_sameCore {word : Word} {indices : List Nat} {before after : Machine δ}
    (hbefore : SameCore m before) (hindices : ∀ i ∈ indices, ¬ m.InMain (m.place address i))
    (hrun : (writeEach address word indices).run before = .ok ⟨⟩ after) : SameCore m after := by
  induction indices generalizing before with
  | nil =>
    cases hrun
    exact hbefore
  | cons i rest ih =>
    obtain ⟨middle, hfirst, hrest⟩ := run_forM_cons_eq_ok_iff.1 hrun
    suffices hmiddle : SameCore m middle from
      ih hmiddle (fun j hj => hindices j (List.mem_cons_of_mem i hj)) hrest
    have hwindow := SameWindow.of_sameCore hbefore
    obtain ⟨hmain, -⟩ | ⟨-, hsame⟩ := writeByte_ok hfirst
    · rw [place_add, Nat.add_zero, hwindow.place_eq, hwindow.inMain_iff] at hmain
      exact absurd hmain (hindices i List.mem_cons_self)
    · exact IsTrans.trans _ _ _ hbefore hsame

/-- The byte at which a word store faults lies in the gap if any were stored before it, and these lie above
    it. -/
theorem writeEach_untorn {word : Word} {after : Machine δ} {fault : Fault}
    (hfits : address.toNat + 3 < addressCount)
    (hwrap : m.place address 0 + 3 < addressCount ∨ 3 ≤ m.layout.romSize + m.layout.mmioSize)
    (hrun : (writeEach address word lastFirst).run m = .error fault after) : SameCore m after := by
  obtain ⟨done, i, rest, middle, hsplit, hdone, hfailed⟩ := run_forM_eq_error hrun
  have hmember (j : Nat) (hj : j ∈ done ++ i :: rest) : j < 4 := by
    rw [← hsplit] at hj
    exact mem_lastFirst.1 hj
  have hdescending : (done ++ i :: rest).Pairwise (· > ·) := by
    rw [← hsplit]
    decide
  have hreached : ∀ j ∈ done, m.Reaches address j :=
    (writeEach_succeeds_iff hfits fun j hj => hmember j (List.mem_append_left _ hj)).1 ⟨_, _, hdone⟩
  have hunreached : ¬ m.Reaches address i := by
    have hstores := (writeEach_keeps address word done).of_ok hdone
    rw [← reaches_from hfits hstores (hmember i (by simp)), ← writeByte_succeeds_iff, not_succeeds_iff]
    exact ⟨_, _, hfailed⟩
  rw [(writeByte_error hfailed).2]
  refine writeEach_sameCore (Std.Refl.refl m) (fun j hj => ?_) hdone
  have habove := (List.pairwise_append.1 hdescending).2.2 j hj i List.mem_cons_self
  have hgap : m.InGap (m.place address i) := by
    have hwindow := (hreached j hj).1
    refine Classical.byContradiction fun hserved => ?_
    exact hunreached ⟨by omega, hserved⟩
  exact not_inMain_of_inGap (by omega) (hmember j (List.mem_append_left _ hj)) hgap hwrap

theorem writeWord_untorn {word : Word} {after : Machine δ} {fault : Fault}
    (hwrap : m.place address 0 + 3 < addressCount ∨ 3 ≤ m.layout.romSize + m.layout.mmioSize)
    (hrun : (writeWord address word).run m = .error fault after) : SameCore m after := by
  cases hdevice : m.deviceWord? address with
  | some target =>
    rw [run_writeWord, hdevice] at hrun
    cases hrun
  | none =>
    rw [run_writeWord_bytes hdevice] at hrun
    split at hrun
    · exact writeEach_untorn ‹_› hwrap hrun
    · cases hrun
      rfl

/-- What can be said of every fault on a machine whose windows are that wide: it changed nothing but the
    bus. -/
def UntornIfWide (_ : Fault) (before after : Machine δ) : Prop :=
  3 ≤ before.layout.romSize + before.layout.mmioSize → SameCore before after

omit [Device δ] in
theorem UntornIfWide.ignoresReads : IgnoresReads (UntornIfWide (δ := δ)) where
  same _ _ _ hsame _ := hsame
  absorb fault before middle after hfirst hrest hwide := by
    have hlayout : middle.layout = before.layout := congrArg (·.layout) hfirst
    exact IsTrans.trans _ _ _ hfirst (hrest (by rwa [hlayout]))

theorem execute_untorn (i : Instruction) : ErrorKeeps UntornIfWide (execute i : Exec δ Flow) := by
  cases hstores : i.opcode.storesWord with
  | false => exact (execute_faultsCleanly hstores).mono fun _ _ _ hsame _ => hsame
  | true =>
    refine execute_errorKeeps UntornIfWide.ignoresReads (fun address word => ?_) hstores
    intro m fault after hrun hwide
    exact writeWord_untorn (.inr hwide) hrun

/-- A word store that faults changes at most bytes of main memory in the window, and those only if the word
    wraps around the end of the physical addresses. When the read-only memory and the device window take
    three addresses or more, it changes nothing but what devices have been told, and so does every
    instruction that faults. This holds for every machine, every window and every virtual address. -/
theorem faulting_store_untorn (m : Machine δ) :
    (∀ (address word : Word) (fault : Fault) (after : Machine δ),
      (writeWord address word).run m = .error fault after →
      StoresInWindow m after ∧
      (after.ram ≠ m.ram → addressCount ≤ m.place address 0 + 3) ∧
      (3 ≤ m.layout.romSize + m.layout.mmioSize → SameCore m after)) ∧
    (3 ≤ m.layout.romSize + m.layout.mmioSize →
      ∀ (i : Instruction) (fault : Fault) (after : Machine δ),
        (execute i).run m = .error fault after → SameCore m after) := by
  refine ⟨fun address word fault after hrun => ⟨(writeWord_keeps address word).of_error hrun, ?_, ?_⟩, ?_⟩
  · intro htorn
    refine Nat.le_of_not_lt fun hfits => ?_
    have hsame := writeWord_untorn (.inl hfits) hrun
    exact htorn (congrArg (·.ram) hsame)
  · intro hreserved
    exact writeWord_untorn (.inr hreserved) hrun
  · intro hreserved i fault after hrun
    exact execute_untorn i _ _ _ hrun hreserved

/-- Without any window at the top of the map, a word that begins at the last address is torn: its last
    three bytes lie at the start of main memory. -/
example :
    let m : Machine Peripheral := assemble ⟨0, 0, by decide⟩ ⟨0, 1, 1⟩ (Memory.zeros 64) (Memory.zeros 0)
    let torn : Machine Peripheral := { m with registers := m.registers.set .windowOffset 0xFFFFFFFF }
    (match (writeWord 0 0x01020304).run torn with
      | .error fault after => fault == .memory && after.ram.word? 0 == some 0x02030400
      | .ok _ _ => false) = true := by
  decide +kernel

end Machine

end Risc32
