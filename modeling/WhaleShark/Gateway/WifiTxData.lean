import Mathlib.Algebra.Ring.Nat
import Mathlib.Data.Nat.Find
import Mathlib.Data.Stream.Init

/-!
# Writing a block to the UART

`WifiTxData` calls `rt_device_write` until everything is written, where each call may take a part.
A call begins at what the call before it took, and not at what all of them took. So the third part
that is taken begins too early, and after a call that took nothing everything begins anew. What is
still to be written is kept in a signed word. The block is written in order exactly when the word is
not negative after the first call and each part holds what was due, wherever it was taken from
(`block_is_written_iff`).
-/

set_option autoImplicit false

namespace WhaleShark

/-! ## `wifi.c` -/

/-- The loop of `WifiTxData` from a call of `rt_device_write` on: the bytes taken, in order, and
what is returned. The calls are numbered, and `returned` says how many bytes each takes. -/
def txLoop (data : Stream' UInt8) (returned : ℕ → UInt32) :
    ℕ → ℕ → UInt32 → Int32 → Option (List UInt8 × UInt32)
  | 0, _, _, _ => none
  | fuel + 1, call, written, remain =>
      let taken := (data.drop written.toNat).take (returned call).toNat
      let written := returned call
      let remain := if 0 < written then (remain.toUInt32 - written).toInt32 else remain
      if 0 < remain then
        (txLoop data returned fuel (call + 1) written remain).map fun later =>
          (taken ++ later.1, later.2)
      else some (taken, written)

/-- `WifiTxData` -/
def wifiTxData (data : Option (Stream' UInt8)) (txSize : UInt32) (returned : ℕ → UInt32)
    (fuel : ℕ) : Option (List UInt8 × UInt32) :=
  match data with
  | none => some ([], 0)
  | some data => if 0 < txSize then txLoop data returned fuel 0 0 txSize.toInt32 else some ([], 0)

/-! ## What is due -/

/-- How much the calls before one have taken. -/
def takenBefore (returned : ℕ → UInt32) : ℕ → ℕ
  | 0 => 0
  | call + 1 => takenBefore returned call + (returned call).toNat

/-- What `rt_device_write` may return for a block: at most what is still to be written, and not 0
forever. -/
structure MayReturn (txSize : UInt32) (returned : ℕ → UInt32) : Prop where
  atMost : ∀ call, (returned call).toNat ≤ txSize.toNat - takenBefore returned call
  goesOn : ∀ call, takenBefore returned call < txSize.toNat → ∃ later ≥ call, returned later ≠ 0

/-- It returns, and the bytes taken are those of the block, in order and each once. -/
def Delivers (data : Stream' UInt8) (txSize : UInt32) (returned : ℕ → UInt32) : Prop :=
  ∃ fuel result, wifiTxData (some data) txSize returned fuel = some result ∧
    result.1 = data.take txSize.toNat

/-- Where a call begins. -/
def beginsAt (returned : ℕ → UInt32) : ℕ → UInt32
  | 0 => 0
  | call + 1 => returned call

/-- The bytes that a call takes. -/
def part (data : Stream' UInt8) (returned : ℕ → UInt32) (call : ℕ) : List UInt8 :=
  (data.drop (beginsAt returned call).toNat).take (returned call).toNat

/-- The bytes that are due at a call. -/
def due (data : Stream' UInt8) (returned : ℕ → UInt32) (call : ℕ) : List UInt8 :=
  (data.drop (takenBefore returned call)).take (returned call).toNat

/-! ## The loop -/

theorem takenBefore_mono {returned : ℕ → UInt32} {i j : ℕ} (order : i ≤ j) :
    takenBefore returned i ≤ takenBefore returned j := by
  induction order with
  | refl => exact le_rfl
  | step _ ih => exact le_trans ih (Nat.le_add_right _ _)

theorem MayReturn.takenBefore_le {txSize : UInt32} {returned : ℕ → UInt32}
    (may : MayReturn txSize returned) (call : ℕ) : takenBefore returned call ≤ txSize.toNat := by
  induction call with
  | zero => exact Nat.zero_le _
  | succ call ih =>
      have bound := may.atMost call
      rw [takenBefore]
      omega

/-- The calls take everything in the end. -/
theorem MayReturn.exists_takenBefore_eq {txSize : UInt32} {returned : ℕ → UInt32}
    (may : MayReturn txSize returned) : ∃ call, takenBefore returned call = txSize.toNat := by
  suffices go : ∀ left call, txSize.toNat - takenBefore returned call = left →
      ∃ call, takenBefore returned call = txSize.toNat from go _ 0 rfl
  intro left
  induction left using Nat.strong_induction_on with
  | _ left ih =>
      intro call rest
      rcases Nat.eq_or_lt_of_le (may.takenBefore_le call) with done | more
      · exact ⟨call, done⟩
      · obtain ⟨later, behind, some_⟩ := may.goesOn call more
        have before : takenBefore returned call ≤ takenBefore returned later :=
          takenBefore_mono behind
        have after : takenBefore returned (later + 1) =
            takenBefore returned later + (returned later).toNat := rfl
        have positive : (returned later).toNat ≠ 0 := fun zero_ =>
          some_ (UInt32.toNat_inj.mp zero_)
        have bound := may.takenBefore_le (later + 1)
        exact ih _ (by omega) (later + 1) rfl

/-- The call that takes the last byte. -/
theorem MayReturn.exists_last {txSize : UInt32} {returned : ℕ → UInt32}
    (may : MayReturn txSize returned) (some_ : 0 < txSize.toNat) :
    ∃ last, takenBefore returned (last + 1) = txSize.toNat ∧
      takenBefore returned last < txSize.toNat := by
  have whole := Nat.find_spec may.exists_takenBefore_eq
  obtain ⟨last, least⟩ : ∃ last, Nat.find may.exists_takenBefore_eq = last + 1 := by
    refine Nat.exists_eq_succ_of_ne_zero fun zero_ => ?_
    rw [zero_, takenBefore] at whole
    omega
  refine ⟨last, least ▸ whole, lt_of_le_of_ne (may.takenBefore_le last) ?_⟩
  exact Nat.find_min may.exists_takenBefore_eq (by omega)

/-- A word that counts what is left is positive when it is not 0 and fits. -/
theorem pos_toInt32 (x : UInt32) : 0 < x.toInt32 ↔ 0 < x.toNat ∧ x.toNat < 2 ^ 31 := by
  have value : x.toInt32.toInt = x.toBitVec.toInt := rfl
  have bits : x.toBitVec.toNat = x.toNat := rfl
  rw [Int32.lt_iff_toInt_lt, value]
  have zero_ : (0 : Int32).toInt = 0 := rfl
  rw [zero_, BitVec.toInt_eq_toNat_cond, bits]
  split <;> omega

/-! ## The calls -/

/-- What is still to be written before a call. -/
def remaining (returned : ℕ → UInt32) (txSize : UInt32) (call : ℕ) : UInt32 :=
  (txSize.toNat - takenBefore returned call).toUInt32

variable {data : Stream' UInt8} {returned : ℕ → UInt32} {txSize : UInt32}

theorem toNat_remaining (call : ℕ) :
    (remaining returned txSize call).toNat = txSize.toNat - takenBefore returned call := by
  have size : txSize.toNat < 2 ^ 32 := txSize.toNat_lt
  rw [remaining, Nat.toUInt32, UInt32.toNat_ofNat']
  omega

/-- What the next call is asked for. -/
theorem remaining_succ (may : MayReturn txSize returned) (call : ℕ) :
    remaining returned txSize call - returned call = remaining returned txSize (call + 1) := by
  have bound := may.atMost call
  have order : returned call ≤ remaining returned txSize call := by
    rwa [UInt32.le_iff_toNat_le, toNat_remaining]
  apply UInt32.toNat_inj.mp
  rw [UInt32.toNat_sub_of_le _ _ order, toNat_remaining, toNat_remaining, takenBefore]
  omega

/-- What a call does, and whether another follows. -/
theorem txLoop_succ (may : MayReturn txSize returned) (fuel call : ℕ) :
    txLoop data returned (fuel + 1) call (beginsAt returned call)
        (remaining returned txSize call).toInt32 =
      if 0 < txSize.toNat - takenBefore returned (call + 1) ∧
          txSize.toNat - takenBefore returned (call + 1) < 2 ^ 31 then
        (txLoop data returned fuel (call + 1) (beginsAt returned (call + 1))
          (remaining returned txSize (call + 1)).toInt32).map fun later =>
            (part data returned call ++ later.1, later.2)
      else some (part data returned call, returned call) := by
  have next : (if 0 < returned call then
      ((remaining returned txSize call).toInt32.toUInt32 - returned call).toInt32
      else (remaining returned txSize call).toInt32) =
        (remaining returned txSize (call + 1)).toInt32 := by
    rw [UInt32.toUInt32_toInt32, ← remaining_succ may]
    split
    · rfl
    · rename_i nothing
      have zero_ : returned call = 0 := by simpa [UInt32.pos_iff_ne_zero] using nothing
      rw [zero_, UInt32.sub_zero]
  simp only [txLoop, next, pos_toInt32, toNat_remaining]
  rfl

/-- The loop writes the parts of the calls, up to the one that takes the last byte. -/
theorem txLoop_eq (may : MayReturn txSize returned) (more call : ℕ)
    (fits : txSize.toNat - takenBefore returned (call + 1) < 2 ^ 31)
    (before : takenBefore returned (call + more) < txSize.toNat)
    (done : takenBefore returned (call + more + 1) = txSize.toNat) :
    txLoop data returned (more + 1) call (beginsAt returned call)
        (remaining returned txSize call).toInt32 =
      some ((List.range' call (more + 1)).flatMap (part data returned),
        returned (call + more)) := by
  induction more generalizing call with
  | zero =>
      rw [txLoop_succ may, if_neg (by rw [Nat.add_zero] at done; omega)]
      simp
  | succ more ih =>
      have order : call + (more + 1) = call + 1 + more := by omega
      have under : takenBefore returned (call + 1) ≤ takenBefore returned (call + (more + 1)) :=
        takenBefore_mono (by omega)
      have behind : takenBefore returned (call + 1) ≤ takenBefore returned (call + 1 + 1) :=
        takenBefore_mono (by omega)
      have calls : List.range' call (more + 1 + 1) = call :: List.range' (call + 1) (more + 1) :=
        List.range'_succ
      rw [txLoop_succ may, if_pos ⟨by omega, fits⟩, order,
        ih (call + 1) (by omega) (order ▸ before) (order ▸ done), Option.map_some, calls,
        List.flatMap_cons]

/-- More fuel does not change what is returned. -/
theorem txLoop_mono {fuel fuel' call : ℕ} {written : UInt32} {remain : Int32}
    {result : List UInt8 × UInt32} (order : fuel ≤ fuel')
    (ran : txLoop data returned fuel call written remain = some result) :
    txLoop data returned fuel' call written remain = some result := by
  induction fuel generalizing fuel' call written remain result with
  | zero => cases ran
  | succ fuel ih =>
      obtain ⟨more, rfl⟩ : ∃ more, fuel' = more + 1 := ⟨fuel' - 1, by omega⟩
      simp only [txLoop] at ran ⊢
      generalize (if 0 < returned call then (remain.toUInt32 - returned call).toInt32
        else remain) = next at ran ⊢
      split at ran
      · rename_i goes
        obtain ⟨later, inner, rfl⟩ := Option.map_eq_some_iff.mp ran
        rw [if_pos goes, ih (by omega) inner, Option.map_some]
      · rename_i stops
        rw [if_neg stops, ran]

theorem txLoop_unique {fuel fuel' call : ℕ} {written : UInt32} {remain : Int32}
    {result result' : List UInt8 × UInt32}
    (ran : txLoop data returned fuel call written remain = some result)
    (ran' : txLoop data returned fuel' call written remain = some result') : result = result' := by
  rcases Nat.le_total fuel fuel' with order | order
  · exact Option.some.inj ((txLoop_mono order ran).symm.trans ran')
  · exact Option.some.inj (ran.symm.trans (txLoop_mono order ran'))

/-! ## The parts -/

/-- Pieces of equal lengths make the same list exactly when they are the same. -/
theorem flatMap_eq_flatMap_iff {ι α : Type*} {f g : ι → List α}
    (lengths : ∀ i, (f i).length = (g i).length) (indices : List ι) :
    indices.flatMap f = indices.flatMap g ↔ ∀ i ∈ indices, f i = g i := by
  induction indices with
  | nil => simp
  | cons i indices ih =>
      rw [List.flatMap_cons, List.flatMap_cons, List.forall_mem_cons, ← ih]
      constructor
      · intro same
        exact List.append_inj same (lengths i)
      · rintro ⟨first, rest⟩
        rw [first, rest]

/-- What was due is the block. -/
theorem flatMap_due (calls : ℕ) :
    (List.range calls).flatMap (due data returned) = data.take (takenBefore returned calls) := by
  induction calls with
  | zero => rfl
  | succ calls ih =>
      rw [List.range_succ, List.flatMap_append, ih, takenBefore, Stream'.take_add,
        List.flatMap_cons, List.flatMap_nil, List.append_nil, due]

/-- The block is written in order exactly when what is left after the first call fits in a signed
word, and each call takes what was due. -/
theorem delivers_iff (data : Stream' UInt8) (may : MayReturn txSize returned) :
    Delivers data txSize returned ↔
      txSize.toNat - (returned 0).toNat < 2 ^ 31 ∧
        ∀ call, part data returned call = due data returned call := by
  have nothing (call : ℕ) (done : takenBefore returned call = txSize.toNat) :
      part data returned call = due data returned call := by
    have bound := may.atMost call
    have zero_ : (returned call).toNat = 0 := by omega
    rw [part, due, zero_]
    rfl
  by_cases empty : txSize = 0
  · subst empty
    have all (call : ℕ) : takenBefore returned call = (0 : UInt32).toNat :=
      Nat.eq_zero_of_le_zero (may.takenBefore_le call)
    refine iff_of_true ⟨0, ([], 0), rfl, rfl⟩ ⟨?_, fun call => nothing call (all call)⟩
    have size : (0 : UInt32).toNat = 0 := rfl
    rw [size]
    omega
  have some_ : 0 < txSize := UInt32.pos_iff_ne_zero.mpr empty
  have positive : 0 < txSize.toNat := UInt32.lt_iff_toNat_lt.mp some_
  have begun : remaining returned txSize 0 = txSize := by
    apply UInt32.toNat_inj.mp
    rw [toNat_remaining, takenBefore, Nat.sub_zero]
  have first : takenBefore returned (0 + 1) = (returned 0).toNat := Nat.zero_add _
  have loop (fuel : ℕ) : wifiTxData (some data) txSize returned fuel =
      txLoop data returned fuel 0 (beginsAt returned 0)
        (remaining returned txSize 0).toInt32 := by
    rw [begun]
    exact if_pos some_
  rcases Nat.lt_or_ge (txSize.toNat - (returned 0).toNat) (2 ^ 31) with fits | negative
  · simp only [fits, true_and]
    obtain ⟨last, done, before⟩ := may.exists_last positive
    have ran : txLoop data returned (last + 1) 0 (beginsAt returned 0)
        (remaining returned txSize 0).toInt32 = _ :=
      txLoop_eq may last 0 (first ▸ fits) (by rwa [Nat.zero_add]) (by rwa [Nat.zero_add])
    have delivers : Delivers data txSize returned ↔
        (List.range (last + 1)).flatMap (part data returned) = data.take txSize.toNat := by
      rw [List.range_eq_range']
      constructor
      · rintro ⟨fuel, result, ran', same⟩
        rw [loop] at ran'
        obtain rfl := txLoop_unique ran ran'
        exact same
      · intro same
        exact ⟨last + 1, _, (loop _).trans ran, same⟩
    have lengths (call : ℕ) :
        (part data returned call).length = (due data returned call).length := by
      rw [part, due, Stream'.length_take, Stream'.length_take]
    rw [delivers, ← done, ← flatMap_due, flatMap_eq_flatMap_iff lengths]
    refine ⟨fun each call => ?_, fun each call _ => each call⟩
    rcases Nat.lt_or_ge call (last + 1) with inside | behind
    · exact each call (List.mem_range.mpr inside)
    · have all : takenBefore returned (last + 1) ≤ takenBefore returned call :=
        takenBefore_mono behind
      have bound := may.takenBefore_le call
      exact nothing call (by omega)
  · refine iff_of_false ?_ fun both => by omega
    rintro ⟨fuel, result, ran, same⟩
    rw [loop] at ran
    cases fuel with
    | zero => cases ran
    | succ fuel =>
        rw [txLoop_succ may, first, if_neg (by omega)] at ran
        obtain rfl := Option.some.inj ran
        have lengths := congrArg List.length same
        rw [part, Stream'.length_take, Stream'.length_take] at lengths
        omega

/-- Two places of a block hold the same bytes, whatever it holds, only if they are one. -/
theorem part_eq_due_iff (call : ℕ) :
    (∀ data, part data returned call = due data returned call) ↔
      returned call = 0 ∨ (beginsAt returned call).toNat = takenBefore returned call := by
  constructor
  · intro same
    by_contra other
    obtain ⟨some_, apart⟩ := not_or.mp other
    obtain ⟨more, count⟩ : ∃ more, (returned call).toNat = more + 1 :=
      Nat.exists_eq_succ_of_ne_zero fun zero_ => some_ (UInt32.toNat_inj.mp zero_)
    let data : Stream' UInt8 := fun i => if i = takenBefore returned call then 1 else 0
    have heads := congrArg List.head? (same data)
    rw [part, due, count, Stream'.take_succ, Stream'.take_succ] at heads
    have here : (data.drop (beginsAt returned call).toNat).head = 0 := by
      simpa [data, Stream'.drop, Stream'.head, Stream'.get] using apart
    have there : (data.drop (takenBefore returned call)).head = 1 := by
      simp [data, Stream'.drop, Stream'.head, Stream'.get]
    rw [List.head?_cons, List.head?_cons, here, there] at heads
    cases heads
  · rintro (nothing | place) data
    · rw [part, due, nothing]
      rfl
    · rw [part, due, place]

/-- **When a block is written in order.** What is left after the first call fits in a signed word,
and each call takes what was due; and for this to be so whatever the block holds, each call that
takes something must begin at what all of them have taken. -/
theorem block_is_written_iff (may : MayReturn txSize returned) :
    (∀ data, Delivers data txSize returned ↔
      txSize.toNat - (returned 0).toNat < 2 ^ 31 ∧
        ∀ call, part data returned call = due data returned call) ∧
      ((∀ data, Delivers data txSize returned) ↔
        txSize.toNat - (returned 0).toNat < 2 ^ 31 ∧
          ∀ call, returned call = 0 ∨
            (beginsAt returned call).toNat = takenBefore returned call) := by
  refine ⟨fun data => delivers_iff data may, ?_⟩
  simp only [delivers_iff _ may, ← part_eq_due_iff]
  constructor
  · intro all
    exact ⟨(all default).1, fun call data => (all data).2 call⟩
  · rintro ⟨fits, all⟩ data
    exact ⟨fits, fun call => all call data⟩

/-- Four bytes in three parts. -/
def threeParts (call : ℕ) : UInt32 := [1, 1, 2].getD call 0

theorem mayReturn_threeParts : MayReturn 4 threeParts where
  atMost call := by
    rcases call with _ | _ | _ | call
    · decide
    · decide
    · decide
    · exact Nat.zero_le _
  goesOn call more := by
    refine ⟨2, ?_, by decide⟩
    by_contra behind
    have all : takenBefore threeParts 3 ≤ takenBefore threeParts call :=
      takenBefore_mono (by omega)
    have four : takenBefore threeParts 3 = (4 : UInt32).toNat := by decide
    omega

theorem block_is_written_iff_threeParts :
    (∀ data, Delivers data 4 threeParts ↔
      (4 : UInt32).toNat - (threeParts 0).toNat < 2 ^ 31 ∧
        ∀ call, part data threeParts call = due data threeParts call) ∧
      ((∀ data, Delivers data 4 threeParts) ↔
        (4 : UInt32).toNat - (threeParts 0).toNat < 2 ^ 31 ∧
          ∀ call, threeParts call = 0 ∨
            (beginsAt threeParts call).toNat = takenBefore threeParts call) :=
  block_is_written_iff mayReturn_threeParts

/-- **The third part is taken from the second byte on**, where the third was due. -/
theorem third_part_begins_too_early :
    MayReturn 4 threeParts ∧
      wifiTxData (some fun i => i.toUInt8) 4 threeParts 3 = some ([0, 1, 1, 2], 2) ∧
      ¬ Delivers (fun i => i.toUInt8) 4 threeParts := by
  have ran : txLoop (fun i => i.toUInt8) threeParts 3 0 0 (4 : UInt32).toInt32 =
      some ([0, 1, 1, 2], 2) := by decide +kernel
  refine ⟨mayReturn_threeParts, ran, ?_⟩
  rintro ⟨fuel, result, ran', same⟩
  obtain rfl := txLoop_unique ran ran'
  exact absurd same (by decide +kernel)

end WhaleShark
