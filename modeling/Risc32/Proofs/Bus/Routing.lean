import Risc32.Bus

namespace Risc32.Bus

variable {δ α : Type} [Device δ] {bus : Bus δ} {address : Word} {position : Nat} {device : δ}

/-- The place, in the order of registration, of the device that an address belongs to. Devices may be equal
    to each other, so that only their places tell them apart. -/
def position? (bus : Bus δ) (address : Word) : Option Nat :=
  bus.devices.findIdx? (Device.serves address)

/-- The address belongs to the first device that serves it. -/
theorem position?_eq_some_iff :
    bus.position? address = some position ↔
      (∃ device, bus.devices[position]? = some device ∧ Device.serves address device = true) ∧
        ∀ earlier < position, ∀ other, bus.devices[earlier]? = some other →
          Device.serves address other = false := by
  rw [position?, List.findIdx?_eq_some_iff_getElem]
  constructor
  · rintro ⟨hposition, hserves, hearlier⟩
    refine ⟨⟨_, List.getElem?_eq_getElem hposition, hserves⟩, fun earlier hlt other hother => ?_⟩
    obtain ⟨hbound, rfl⟩ := List.getElem?_eq_some_iff.1 hother
    exact Bool.eq_false_iff.2 (hearlier earlier hlt)
  · rintro ⟨⟨device, hdevice, hserves⟩, hearlier⟩
    obtain ⟨hposition, rfl⟩ := List.getElem?_eq_some_iff.1 hdevice
    refine ⟨hposition, hserves, fun earlier hlt => Bool.eq_false_iff.1 ?_⟩
    exact hearlier earlier hlt _ (List.getElem?_eq_getElem _)

theorem deviceAt?_eq (bus : Bus δ) (address : Word) :
    bus.deviceAt? address = (bus.position? address).bind (bus.devices[·]?) :=
  List.find?_eq_bind_findIdx?_getElem?

theorem askFirst_eq (address : Word) (question : Word → δ → Response δ α) (devices : List δ) :
    askFirst address question devices =
      (devices.findIdx? (Device.serves address)).bind fun position =>
        devices[position]?.map fun device =>
          (question (address - Device.base device) device).mapDevice (devices.set position ·) := by
  induction devices with
  | nil => rfl
  | cons first rest ih =>
    rw [askFirst, List.findIdx?_cons]
    by_cases hserves : Device.serves address first = true
    · rw [if_pos hserves, if_pos hserves]
      rfl
    · rw [if_neg hserves, if_neg hserves, ih]
      cases hrest : rest.findIdx? (Device.serves address) with
      | none => rfl
      | some position => cases hdevice : rest[position]? <;> simp [hdevice, Response.mapDevice]

/-- An access is answered by the device that the address belongs to, for the offset of the address in the
    window of that device, and leaves every other device as it is. -/
theorem ask_of_position? (hposition : bus.position? address = some position)
    (hdevice : bus.devices[position]? = some device) (unmapped : α) (notice : Notice)
    (question : Word → δ → Response δ α) :
    bus.ask address unmapped notice question =
      bus.absorb ((question (address - Device.base device) device).mapDevice
        (bus.devices.set position ·)) := by
  unfold position? at hposition
  rw [ask, askFirst_eq, hposition, Option.bind_some, hdevice, Option.map_some]

theorem ask_of_unmapped (hposition : bus.position? address = none) (unmapped : α) (notice : Notice)
    (question : Word → δ → Response δ α) :
    bus.ask address unmapped notice question = (unmapped, bus.note notice) := by
  unfold position? at hposition
  rw [ask, askFirst_eq, hposition]
  rfl

theorem getElem?_devices_ask (bus : Bus δ) (address : Word) (unmapped : α) (notice : Notice)
    (question : Word → δ → Response δ α) (position : Nat) :
    (bus.ask address unmapped notice question).2.devices[position]? =
      if bus.position? address = some position then
        bus.devices[position]?.map fun device => (question (address - Device.base device) device).device
      else bus.devices[position]? := by
  cases howner : bus.position? address with
  | none =>
    rw [ask_of_unmapped howner, if_neg nofun]
    rfl
  | some owner =>
    obtain ⟨⟨device, hdevice, -⟩, -⟩ := position?_eq_some_iff.1 howner
    rw [ask_of_position? howner hdevice]
    change (bus.devices.set owner (question _ device).device)[position]? = _
    by_cases hposition : owner = position
    · subst hposition
      obtain ⟨hbound, -⟩ := List.getElem?_eq_some_iff.1 hdevice
      rw [if_pos rfl, List.getElem?_set_self hbound, hdevice]
      rfl
    · rw [if_neg (by simpa using hposition), List.getElem?_set_ne hposition]

end Risc32.Bus
