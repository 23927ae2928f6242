import Risc32.Memory.Request

namespace Risc32

namespace MemoryRequest

variable {length : Nat}

/-- The first index that a request names. -/
def start : MemoryRequest → Nat
  | set index _ => index.toNat
  | write start _ => start.toNat
  | clear => 0

/-- All of what a request names lies in an array of `length` bytes. -/
def Fits (length : Nat) : MemoryRequest → Prop
  | set index _ => index.toNat < length
  | write start data => start.toNat + data.length ≤ length
  | clear => True

instance : DecidablePred (Fits length)
  | set index _ => inferInstanceAs (Decidable (index.toNat < length))
  | write start data => inferInstanceAs (Decidable (start.toNat + data.length ≤ length))
  | clear => inferInstanceAs (Decidable True)

/-- What a request makes of the bytes of an array without bounds. -/
def update (bytes : Nat → Byte) : MemoryRequest → Nat → Byte
  | set index value, i => if i = index.toNat then value else bytes i
  | write start data, i => if start.toNat ≤ i then data.getD (i - start.toNat) (bytes i) else bytes i
  | clear, _ => 0

/-- What those of the requests that fit make of the bytes of an array. -/
def updateAll (length : Nat) (bytes : Nat → Byte) (requests : List MemoryRequest) : Nat → Byte :=
  (requests.filter (Fits length)).foldl update bytes

end MemoryRequest

namespace Memory

variable {memory : Memory} {length : Nat} {bytes : Nat → Byte} {request : MemoryRequest}

/-- The memory is the array of `length` bytes that starts with these. -/
def Holds (memory : Memory) (length : Nat) (bytes : Nat → Byte) : Prop :=
  memory.size = length ∧ ∀ index < length, memory.get? index = some (bytes index)

theorem holds_zeros (length : Nat) : (zeros length).Holds length fun _ => 0 := by
  refine ⟨size_zeros length, fun index hindex => ?_⟩
  simp [zeros, get?, hindex]

theorem Holds.get (h : memory.Holds length bytes) (index : Nat) :
    memory.get index =
      if index < length then .ok (bytes index) else .error (.outOfRange (max index length) length) := by
  obtain ⟨rfl, hbytes⟩ := h
  by_cases hindex : index < memory.size
  · rw [Memory.get, hbytes index hindex, if_pos hindex]
  · have hmax : max index memory.size = index := Nat.max_eq_left (Nat.le_of_not_lt hindex)
    rw [Memory.get, get?_eq_none_iff.2 (Nat.le_of_not_lt hindex), if_neg hindex, hmax]

theorem Holds.put (h : memory.Holds length bytes) (index : BitVec 64) (value : Byte) :
    (memory.put index.toNat value).Holds length ((MemoryRequest.set index value).update bytes) := by
  obtain ⟨rfl, hbytes⟩ := h
  refine ⟨size_put .., fun other hother => ?_⟩
  by_cases hsame : other = index.toNat
  · subst hsame
    rw [get?_put_self value hother, MemoryRequest.update, if_pos rfl]
  · rw [get?_put_of_ne _ _ (Ne.symm hsame), hbytes other hother, MemoryRequest.update, if_neg hsame]

theorem Holds.putAll (h : memory.Holds length bytes) (start : BitVec 64) (data : List Byte) :
    (memory.putAll start.toNat data).Holds length ((MemoryRequest.write start data).update bytes) := by
  obtain ⟨rfl, hbytes⟩ := h
  refine ⟨size_putAll .., fun other hother => ?_⟩
  rw [get?_putAll _ _ _ hother, hbytes other hother, MemoryRequest.update]
  by_cases hstart : start.toNat ≤ other
  · rw [if_pos hstart, List.getD_eq_getElem?_getD]
    by_cases hend : other < start.toNat + data.length
    · have hinside : other - start.toNat < data.length := by omega
      rw [if_pos ⟨hstart, hend⟩, List.getElem?_eq_getElem hinside, Option.getD_some]
    · have houtside : data.length ≤ other - start.toNat := by omega
      rw [if_neg (hend ·.2), List.getElem?_eq_none houtside, Option.getD_none]
  · rw [if_neg (hstart ·.1), if_neg hstart]

/-- What fits is performed. -/
theorem Holds.perform (h : memory.Holds length bytes) (hlength : length < indexLimit)
    (hfits : request.Fits length) :
    ∃ after, request.perform memory = .ok after ∧ after.Holds length (request.update bytes) := by
  have hsize : memory.size = length := h.1
  subst hsize
  cases request with
  | set index value => exact ⟨_, if_pos hfits, h.put index value⟩
  | write start data =>
    refine ⟨_, ?_, h.putAll start data⟩
    rw [MemoryRequest.perform, writeAt_eq_write hlength]
    exact if_pos hfits
  | clear => exact ⟨_, rfl, holds_zeros memory.size⟩

/-- The refusal names the first index of the range that lies outside. -/
theorem Holds.refuse (h : memory.Holds length bytes) (hlength : length < indexLimit)
    (hfits : ¬request.Fits length) :
    request.perform memory = .error (.outOfRange (max request.start length) length) := by
  obtain ⟨rfl, -⟩ := h
  cases request with
  | set index value =>
    have hmax : max index.toNat memory.size = index.toNat := Nat.max_eq_left (Nat.le_of_not_lt hfits)
    rw [MemoryRequest.start, hmax]
    exact if_neg hfits
  | write start data =>
    rw [MemoryRequest.perform, writeAt_eq_write hlength]
    exact if_neg hfits
  | clear => exact absurd trivial hfits

theorem Holds.serve (h : memory.Holds length bytes) (hlength : length < indexLimit)
    (request : MemoryRequest) :
    (memory.serve request).Holds length (if request.Fits length then request.update bytes else bytes) := by
  by_cases hfits : request.Fits length
  · obtain ⟨after, hperform, hafter⟩ := h.perform hlength hfits
    rwa [if_pos hfits, serve_of_ok hperform]
  · rwa [if_neg hfits, serve_of_error (h.refuse hlength hfits)]

/-- The induction is on the requests, with the memory and the array that it holds left open. -/
theorem Holds.serveAll (h : memory.Holds length bytes) (hlength : length < indexLimit)
    (requests : List MemoryRequest) :
    (requests.foldl Memory.serve memory).Holds length (MemoryRequest.updateAll length bytes requests) := by
  induction requests generalizing memory bytes with
  | nil => exact h
  | cons request rest ih =>
    have hserve := h.serve hlength request
    rw [MemoryRequest.updateAll]
    by_cases hfits : request.Fits length
    · rw [if_pos hfits] at hserve
      rw [List.filter_cons_of_pos (by simpa using hfits)]
      exact ih hserve
    · rw [if_neg hfits] at hserve
      rw [List.filter_cons_of_neg (by simpa using hfits)]
      exact ih hserve

/-- After any requests a memory is the array on which only those were performed that fit. A request is
    performed when it fits by unbounded sums, and a refused one reports the first index outside and changes
    nothing. -/
theorem requests_exact {length : Nat} (hlength : length ≤ addressCount) (requests : List MemoryRequest) :
    ∃ built, ofSize length = .ok built ∧
      let memory := requests.foldl serve built
      memory.size = length ∧
      (∀ index : BitVec 64, memory.get index.toNat =
        if index.toNat < length then .ok (MemoryRequest.updateAll length (fun _ => 0) requests index.toNat)
        else .error (.outOfRange (max index.toNat length) length)) ∧
      ∀ request : MemoryRequest,
        if request.Fits length then request.perform memory = .ok (memory.serve request)
        else request.perform memory = .error (.outOfRange (max request.start length) length) ∧
          memory.serve request = memory := by
  have hlimit : length < indexLimit := Nat.lt_of_le_of_lt hlength (by decide)
  have hholds := (holds_zeros length).serveAll hlimit requests
  refine ⟨zeros length, ofSize_of_le hlength, hholds.1, fun index => hholds.get index.toNat,
    fun request => ?_⟩
  by_cases hfits : request.Fits length
  · obtain ⟨after, hperform, -⟩ := hholds.perform hlimit hfits
    rw [if_pos hfits, serve_of_ok hperform]
    exact hperform
  · have hperform := hholds.refuse hlimit hfits
    rw [if_neg hfits, serve_of_error hperform]
    exact ⟨hperform, rfl⟩

/-- Two bytes at the greatest index end beyond every 64-bit sum, and of three bytes at two the last one would
    lie outside. -/
theorem requests_exact_four :
    4 ≤ addressCount ∧
      ∃ built, ofSize 4 = .ok built ∧
        let requests : List MemoryRequest :=
          [.write 1 [7, 8], .write 0xFFFFFFFFFFFFFFFF [1, 2], .set 3 0xAB, .write 2 [1, 2, 3], .set 4 9]
        let memory := requests.foldl serve built
        memory.size = 4 ∧
        (memory.get 0 = .ok 0 ∧ memory.get 1 = .ok 7 ∧ memory.get 2 = .ok 8 ∧ memory.get 3 = .ok 0xAB) ∧
        memory.get 4 = .error (.outOfRange 4 4) ∧
        (MemoryRequest.write 0xFFFFFFFFFFFFFFFF [1, 2]).perform memory =
          .error (.outOfRange 0xFFFFFFFFFFFFFFFF 4) ∧
        (MemoryRequest.write 2 [1, 2, 3]).perform memory = .error (.outOfRange 4 4) ∧
        memory.serve (.write 2 [1, 2, 3]) = memory := by
  obtain ⟨built, hbuilt, hsize, hget, hrequest⟩ := requests_exact (show 4 ≤ addressCount by decide)
    [.write 1 [7, 8], .write 0xFFFFFFFFFFFFFFFF [1, 2], .set 3 0xAB, .write 2 [1, 2, 3], .set 4 9]
  exact ⟨by decide, built, hbuilt, hsize, ⟨hget 0, hget 1, hget 2, hget 3⟩, hget 4,
    (hrequest (.write 0xFFFFFFFFFFFFFFFF [1, 2])).1, (hrequest (.write 2 [1, 2, 3])).1,
    (hrequest (.write 2 [1, 2, 3])).2⟩

end Memory

end Risc32
