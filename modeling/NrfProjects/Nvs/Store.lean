import Mathlib.Logic.Function.Basic
import NrfProjects.Interaction.Boots
import NrfProjects.Interaction.Errno
import NrfProjects.Nvs.Main

/-! # The storage beside the NVS demo

A store maps item ids to items. Each call either succeeds or fails and leaves the store alone;
`Outcomes` says which of the two each call may do, so that one device serves every assumption about
failures. Nothing is assumed of the history of an item: it is only printed. -/

namespace NrfProjects.Nvs
set_option autoImplicit false
open Interaction Encoding

/-- The data of an item that is present; writing no data at all deletes an item. -/
structure Item where
  bytes : List UInt8
  nonempty : bytes ≠ []

abbrev Store : Type := ℕ → Option Item

def Item.ofData (data : List UInt8) : Option Item :=
  if h : data ≠ [] then some ⟨data, h⟩ else none

/-- Whether a call may succeed (`true`) and whether it may fail (`false`); for a read, this may
depend on the item. -/
structure Outcomes where
  setup : Bool → Prop
  read : ℕ → Option Item → Bool → Prop
  write : ℕ → List UInt8 → Bool → Prop
  delete : ℕ → Bool → Prop

/-- No call fails. -/
def allSucceed : Outcomes where
  setup ok := ok = true
  read _ _ ok := ok = true
  write _ _ ok := ok = true
  delete _ ok := ok = true

def ENOENT : Errno := ⟨-2, by decide⟩

/-- What a successful read answers. -/
def readItem (s : Store) (id len : ℕ) : ℤ × List UInt8 :=
  match s id with
  | none => (ENOENT.code, [])
  | some d => (d.bytes.length, d.bytes.take len)

def device (o : Outcomes) : Device Call Store where
  answer
    | .deviceIsReady, s, r, t => o.setup r ∧ t = s
    | .flashGetPageInfoByOffs, s, r, t => o.setup (r == 0) ∧ t = s
    | .nvsMount, s, r, t => o.setup (r == 0) ∧ t = s
    | .nvsRead id len, s, r, t => t = s ∧
      (o.read id (s id) true ∧ r = readItem s id len ∨
        o.read id (s id) false ∧ r.1 < 0 ∧ r.2 = [])
    | .nvsWrite id data, s, r, t =>
      o.write id data true ∧ 0 ≤ r ∧ t = Function.update s id (Item.ofData data) ∨
        o.write id data false ∧ r < 0 ∧ t = s
    | .nvsDelete id, s, r, t =>
      o.delete id true ∧ r = 0 ∧ t = Function.update s id none ∨
        o.delete id false ∧ r < 0 ∧ t = s
    | .nvsReadHist _ _ _, s, _, t => t = s
  move _ _ := False

instance (o : Outcomes) : (device o).Quiet := ⟨fun _ _ h => h⟩

section
variable {o : Outcomes} {s t : Store} {id len : ℕ}

@[simp] theorem answer_deviceIsReady {r : Bool} :
    (device o).answer .deviceIsReady s r t ↔ o.setup r ∧ t = s := Iff.rfl

@[simp] theorem answer_flashGetPageInfoByOffs {r : ℤ} :
    (device o).answer .flashGetPageInfoByOffs s r t ↔ o.setup (r == 0) ∧ t = s := Iff.rfl

@[simp] theorem answer_nvsMount {r : ℤ} :
    (device o).answer .nvsMount s r t ↔ o.setup (r == 0) ∧ t = s := Iff.rfl

@[simp] theorem answer_nvsRead {r : ℤ × List UInt8} :
    (device o).answer (.nvsRead id len) s r t ↔ t = s ∧
      (o.read id (s id) true ∧ r = readItem s id len ∨
        o.read id (s id) false ∧ r.1 < 0 ∧ r.2 = []) := Iff.rfl

@[simp] theorem answer_nvsWrite {data : List UInt8} {r : ℤ} :
    (device o).answer (.nvsWrite id data) s r t ↔
      o.write id data true ∧ 0 ≤ r ∧ t = Function.update s id (Item.ofData data) ∨
        o.write id data false ∧ r < 0 ∧ t = s := Iff.rfl

@[simp] theorem answer_nvsDelete {r : ℤ} :
    (device o).answer (.nvsDelete id) s r t ↔
      o.delete id true ∧ r = 0 ∧ t = Function.update s id none ∨
        o.delete id false ∧ r < 0 ∧ t = s := Iff.rfl

@[simp] theorem answer_nvsReadHist {cnt : ℕ} {r : ℤ × List UInt8} :
    (device o).answer (.nvsReadHist id len cnt) s r t ↔ t = s := Iff.rfl

@[simp] theorem allSucceed_setup {ok : Bool} : allSucceed.setup ok ↔ ok = true := Iff.rfl

@[simp] theorem allSucceed_read {d : Option Item} {ok : Bool} :
    allSucceed.read id d ok ↔ ok = true := Iff.rfl

@[simp] theorem allSucceed_write {data : List UInt8} {ok : Bool} :
    allSucceed.write id data ok ↔ ok = true := Iff.rfl

@[simp] theorem allSucceed_delete {ok : Bool} : allSucceed.delete id ok ↔ ok = true := Iff.rfl

end

/-! ## Reading an item -/

theorem readItem_absent {s : Store} {id : ℕ} (len : ℕ) (h : s id = none) :
    readItem s id len = (ENOENT.code, []) := by
  simp [readItem, h]

theorem readItem_present {s : Store} {id : ℕ} {d : Item} (len : ℕ) (h : s id = some d) :
    readItem s id len = ((d.bytes.length : ℤ), d.bytes.take len) := by
  simp [readItem, h]

theorem Item.length_pos (d : Item) : 0 < (d.bytes.length : ℤ) := by
  have := List.length_pos_iff.mpr d.nonempty
  omega

/-- A read that succeeds answers with a positive code exactly for an item that is present. -/
theorem readItem_pos {s : Store} {id : ℕ} (len : ℕ) :
    0 < (readItem s id len).1 ↔ (s id).isSome := by
  cases h : s id with
  | none => simp [readItem_absent len h, ENOENT]
  | some d => simpa [readItem_present len h] using d.length_pos

/-! ## The counter and the string -/

/-- The persisted counter, if its item is present. -/
def counter (s : Store) : Option ℕ := (s RBT_CNT_ID).map fun d => ofLE d.bytes

/-- The counter item is absent or holds a 32-bit value. -/
def CounterWord (s : Store) : Prop := ∀ d, s RBT_CNT_ID = some d → d.bytes.length = 4

/-- The counter that a boot from `s` reads, if its read succeeds. -/
def value (s : Store) : ℕ := (counter s).getD 0

def StringPresent (s : Store) : Prop := (s STRING_ID).isSome

theorem ofData_toLE (v : ℕ) : Item.ofData (toLE 4 v) = some ⟨toLE 4 v, by simp [toLE]⟩ := by
  simp [Item.ofData, toLE]

theorem counter_congr {s t : Store} (h : t RBT_CNT_ID = s RBT_CNT_ID) : counter t = counter s := by
  simp [counter, h]

theorem value_some {s : Store} {v : ℕ} (h : counter s = some v) : value s = v := by
  rw [value, h, Option.getD_some]

theorem value_none {s : Store} (h : counter s = none) : value s = 0 := by
  rw [value, h, Option.getD_none]

/-- A counter that is read as something other than 0 is stored. -/
theorem counter_of_value {s : Store} {v : ℕ} (h : value s = v) (hv : v ≠ 0) :
    counter s = some v := by
  cases hs : counter s with
  | none =>
    rw [value_none hs] at h
    omega
  | some w =>
    rw [value_some hs] at h
    rw [h]

theorem value_congr {s t : Store} (h : t RBT_CNT_ID = s RBT_CNT_ID) : value t = value s := by
  rw [value, counter_congr h, value]

theorem CounterWord.congr {s t : Store} (hs : CounterWord s) (h : t RBT_CNT_ID = s RBT_CNT_ID) :
    CounterWord t :=
  fun d hd => hs d (h ▸ hd)

/-- The store after the counter is written. -/
def setCounter (s : Store) (v : ℕ) : Store :=
  Function.update s RBT_CNT_ID (Item.ofData (toLE 4 v))

theorem counter_setCounter (s : Store) {v : ℕ} (hv : v < 2 ^ 32) :
    counter (setCounter s v) = some v := by
  simp only [counter, setCounter, Function.update_self, ofData_toLE, Option.map_some]
  rw [ofLE_toLE_of_lt hv]

theorem value_setCounter (s : Store) {v : ℕ} (hv : v < 2 ^ 32) : value (setCounter s v) = v :=
  value_some (counter_setCounter s hv)

theorem setCounter_word (s : Store) (v : ℕ) : CounterWord (setCounter s v) := by
  intro d hd
  simp only [setCounter, Function.update_self, ofData_toLE, Option.some.injEq] at hd
  simp [← hd]

theorem setCounter_string (s : Store) (v : ℕ) : setCounter s v STRING_ID = s STRING_ID := by
  simp [setCounter, RBT_CNT_ID, STRING_ID]

/-- The counter that `main` loads: the persisted one, or 0. -/
theorem loadCounter_readItem {s : Store} (h : CounterWord s) :
    loadCounter (readItem s RBT_CNT_ID 4).2 = value s := by
  cases hd : s RBT_CNT_ID with
  | none => simp [readItem_absent 4 hd, value, counter, hd, loadCounter, ofLE_toLE]
  | some d =>
    have hlen := h d hd
    have htake : d.bytes.take 4 = d.bytes := List.take_of_length_le (by omega)
    simp [readItem_present 4 hd, value, counter, hd, loadCounter, htake, hlen, toLE]

/-! ## Runs of the device

To exhibit a run it is enough to say the reads and the writes of which items fail. -/

/-- One reboot before the counter is reset. -/
def oneReboot : Config := ⟨1, 1, by decide, by decide, by decide⟩

def twoReboots : Config := ⟨2, 1, by decide, by decide, by decide⟩

def script (readFails writeFails : ℕ → Bool) {ρ : Type} : Call ρ → Store → Option (ρ × Store)
  | .deviceIsReady, s => some (true, s)
  | .flashGetPageInfoByOffs, s => some (0, s)
  | .nvsMount, s => some (0, s)
  | .nvsRead id len, s =>
    some (if readFails id then (Errno.ioError.code, []) else readItem s id len, s)
  | .nvsWrite id data, s =>
    some (if writeFails id then (Errno.ioError.code, s)
      else (data.length, Function.update s id (Item.ofData data)))
  | .nvsDelete id, s => some (0, Function.update s id none)
  | .nvsReadHist _ _ _, s => some ((ENOENT.code, []), s)

theorem script_follows {o : Outcomes} {readFails writeFails : ℕ → Bool} (hsetup : o.setup true)
    (hread : ∀ id d, o.read id d (!readFails id)) (hwrite : ∀ id data, o.write id data (!writeFails id))
    (hdelete : ∀ id, o.delete id true) :
    Script.Follows (script readFails writeFails) (device o) := by
  intro ρ c s r t h
  refine ⟨s, .refl, ?_⟩
  cases c with
  | deviceIsReady =>
    cases h
    exact ⟨hsetup, rfl⟩
  | flashGetPageInfoByOffs =>
    cases h
    exact ⟨hsetup, rfl⟩
  | nvsMount =>
    cases h
    exact ⟨hsetup, rfl⟩
  | nvsRead id len =>
    have hid := hread id (s id)
    cases hf : readFails id with
    | true =>
      rw [hf] at hid
      simp only [script, hf, if_true, Option.some.injEq, Prod.mk.injEq] at h
      obtain ⟨rfl, rfl⟩ := h
      exact ⟨rfl, .inr ⟨hid, Errno.ioError.neg, rfl⟩⟩
    | false =>
      rw [hf] at hid
      simp only [script, hf, Bool.false_eq_true, if_false, Option.some.injEq, Prod.mk.injEq] at h
      obtain ⟨rfl, rfl⟩ := h
      exact ⟨rfl, .inl ⟨hid, rfl⟩⟩
  | nvsWrite id data =>
    have hid := hwrite id data
    cases hf : writeFails id with
    | true =>
      rw [hf] at hid
      simp only [script, hf, if_true, Option.some.injEq, Prod.mk.injEq] at h
      obtain ⟨rfl, rfl⟩ := h
      exact .inr ⟨hid, Errno.ioError.neg, rfl⟩
    | false =>
      rw [hf] at hid
      simp only [script, hf, Bool.false_eq_true, if_false, Option.some.injEq, Prod.mk.injEq] at h
      obtain ⟨rfl, rfl⟩ := h
      exact .inl ⟨hid, Int.natCast_nonneg _, rfl⟩
  | nvsDelete id =>
    cases h
    exact .inl ⟨hdelete id, rfl, rfl⟩
  | nvsReadHist id len cnt =>
    cases h
    exact rfl

/-- With no failing call, the first boots on an empty store: two that reboot, one that is cut before
it writes, and one that returns. -/
theorem first_boots : ∃ s t u,
    Boot (device allSucceed) id (main twoReboots) (fun _ => none) (some .rebooted) s ∧
      Boot (device allSucceed) id (main twoReboots) s (some .rebooted) t ∧
      Boot (device allSucceed) id (main twoReboots) t none t ∧
      Boot (device allSucceed) id (main twoReboots) t (some .returned) u := by
  have hfollows : Script.Follows (script (fun _ => false) fun _ => false) (device allSucceed) :=
    script_follows rfl (fun _ _ => rfl) (fun _ _ => rfl) fun _ => rfl
  exact ⟨_, _, _, .of_replay hfollows 20 (Prod.ext (by rfl) rfl),
    .of_replay hfollows 20 (Prod.ext (by rfl) rfl), .cut (replay_steps hfollows 6 _),
    .of_replay hfollows 20 (Prod.ext (by rfl) rfl)⟩

end NrfProjects.Nvs
