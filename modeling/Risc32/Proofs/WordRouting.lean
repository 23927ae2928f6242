import Risc32.Peripheral
import Risc32.Proofs.Bus.Routing

namespace Risc32

/-- A window that holds the first and the last byte of a word holds all of it. -/
theorem Device.serves_between {δ : Type} [Device δ] {device : δ} {address : Word} {i : Nat}
    (hfits : address.toNat + 3 < addressCount) (hfirst : Device.serves address device = true)
    (hlast : Device.serves (address + 3) device = true) (hi : i < 4) :
    Device.serves (address + BitVec.ofNat 32 i) device = true := by
  have hlastAddress : (address + 3).toNat = address.toNat + 3 := toNat_add_of_fits hfits
  have haddress : (address + BitVec.ofNat 32 i).toNat = address.toNat + i := toNat_add_of_fits (by omega)
  simp only [Device.serves, Bool.and_eq_true, decide_eq_true_eq] at hfirst hlast ⊢
  omega

namespace Bus

variable {δ : Type} [Device δ] {bus : Bus δ} {address : Word}

/-- The word at the address exists, and each of its bytes belongs to one and the same device. -/
def OneOwner (bus : Bus δ) (address : Word) : Prop :=
  address.toNat + 3 < addressCount ∧
    ∃ position, ∀ i < 4, bus.position? (address + BitVec.ofNat 32 i) = some position

/-- All of the word lies in the window of the device that its first byte belongs to. -/
def Covered (bus : Bus δ) (address : Word) : Prop :=
  address.toNat + 3 < addressCount ∧
    ∃ position device, bus.position? address = some position ∧ bus.devices[position]? = some device ∧
      ∀ i < 4, Device.serves (address + BitVec.ofNat 32 i) device = true

/-- A device serves a byte of the word and has been registered before the one that the first byte of the word
    belongs to. -/
def Shadowed (bus : Bus δ) (address : Word) : Prop :=
  ∃ position, bus.position? address = some position ∧ ∃ earlier < position, ∃ other,
    bus.devices[earlier]? = some other ∧
      ∃ i < 4, Device.serves (address + BitVec.ofNat 32 i) other = true

theorem mapsWord_iff_covered : bus.mapsWord address = true ↔ bus.Covered address := by
  simp only [mapsWord, Bool.and_eq_true, decide_eq_true_eq, Option.any_eq_true, deviceAt?_eq,
    Option.bind_eq_some_iff]
  refine and_congr_right fun hfits => ?_
  constructor
  · rintro ⟨device, ⟨position, hposition, hdevice⟩, hlast⟩
    obtain ⟨⟨_, hfound, hfirst⟩, -⟩ := position?_eq_some_iff.1 hposition
    obtain rfl := Option.some.inj (hfound.symm.trans hdevice)
    exact ⟨position, _, hposition, hdevice, fun i hi => Device.serves_between hfits hfirst hlast hi⟩
  · rintro ⟨position, device, hposition, hdevice, hserves⟩
    exact ⟨device, ⟨position, hposition, hdevice⟩, hserves 3 (by omega)⟩

theorem oneOwner_iff : bus.OneOwner address ↔ bus.Covered address ∧ ¬ bus.Shadowed address := by
  have hzero : address + BitVec.ofNat 32 0 = address := BitVec.add_zero address
  constructor
  · rintro ⟨hfits, position, howner⟩
    have hfirst := howner 0 (by omega)
    rw [hzero] at hfirst
    obtain ⟨⟨device, hdevice, -⟩, -⟩ := position?_eq_some_iff.1 hfirst
    refine ⟨⟨hfits, position, device, hfirst, hdevice, fun i hi => ?_⟩, ?_⟩
    · obtain ⟨⟨_, hfound, hserves⟩, -⟩ := position?_eq_some_iff.1 (howner i hi)
      obtain rfl := Option.some.inj (hfound.symm.trans hdevice)
      exact hserves
    · rintro ⟨_, hposition, earlier, hearlier, other, hother, i, hi, hserves⟩
      obtain rfl := Option.some.inj (hposition.symm.trans hfirst)
      have hclear := (position?_eq_some_iff.1 (howner i hi)).2 earlier hearlier other hother
      exact absurd hserves (Bool.eq_false_iff.1 hclear)
  · rintro ⟨⟨hfits, position, device, hposition, hdevice, hserves⟩, hclear⟩
    refine ⟨hfits, position, fun i hi => position?_eq_some_iff.2 ⟨⟨device, hdevice, hserves i hi⟩, ?_⟩⟩
    intro earlier hearlier other hother
    exact Bool.eq_false_iff.2 fun hshadow =>
      hclear ⟨position, hposition, earlier, hearlier, other, hother, i, hi, hshadow⟩

/-- For every list of devices, whatever their windows, and every address: a word can go to a device at once just
    when it exists and lies in the window of the device that its first byte belongs to. All four of its bytes
    then belong to this device, as accesses to bytes find it, unless a device registered earlier serves one of
    them; and if all four belong to one device, the word can go to it at once. Each access, of a word or of a
    byte, reaches the device that its address belongs to and leaves all others as they are. -/
theorem word_routing (bus : Bus δ) (address : Word) :
    (bus.mapsWord address = true ↔ bus.Covered address) ∧
    (bus.OneOwner address ↔ bus.mapsWord address = true ∧ ¬ bus.Shadowed address) ∧
    ∀ (α : Type) (unmapped : α) (notice : Notice) (question : Word → δ → Response δ α) (position : Nat),
      (bus.ask address unmapped notice question).2.devices[position]? =
        if bus.position? address = some position then
          bus.devices[position]?.map fun device => (question (address - Device.base device) device).device
        else bus.devices[position]? := by
  refine ⟨mapsWord_iff_covered, ?_, fun _ => getElem?_devices_ask bus address⟩
  rw [mapsWord_iff_covered]
  exact oneOwner_iff

/-- A store of one word is registered first, in the middle of the window of another one. The first byte of the
    word belongs to the larger store and the third one to the smaller, but the word goes to the larger one. -/
theorem word_past_earlier_device :
    let inner := WordStore.create 0xFFFF0002 4 [] []
    let outer := WordStore.create 0xFFFF0000 8 [] []
    let bus : Bus Peripheral := { devices := [.words inner, .words outer] }
    bus.position? 0xFFFF0000 = some 1 ∧ bus.position? 0xFFFF0002 = some 0 ∧
      bus.mapsWord 0xFFFF0000 = true ∧ ¬ bus.OneOwner 0xFFFF0000 := by
  intro inner outer bus
  have hfirst : bus.position? 0xFFFF0000 = some 1 := by decide +kernel
  have hthird : bus.position? 0xFFFF0002 = some 0 := by decide +kernel
  refine ⟨hfirst, hthird, by decide +kernel, ?_⟩
  rintro ⟨-, position, howner⟩
  have hsame : bus.position? 0xFFFF0000 = bus.position? 0xFFFF0002 :=
    (howner 0 (by omega)).trans (howner 2 (by omega)).symm
  rw [hfirst, hthird] at hsame
  cases hsame

end Bus

end Risc32
