import Mathlib.Data.Finset.Card
import Mathlib.Data.Finset.Range
import WhaleShark.Server.ManageClient

/-!
# Packets and reads

`manage_client` takes what one call of `sock_recv` returned for one packet, and nothing is kept
from one read to the next. TCP may cut the stream of packets anywhere. A packet is obtained when it
begins a read that carries it to its end; the rest of a read behind its first packet is dropped, and
a read that begins inside a packet is refused as long as it does not look like a packet itself. So
the readings are the packets of the stream, once and in order, when every packet begins such a read,
and only then (`readings_are_frames`). With reads of 27 bytes two packets of 19 bytes that
arrive together are read as one (`coalesced_frames`).
-/

set_option autoImplicit false

namespace WhaleShark.Server

/-- The length of a sensor frame. -/
def frameLen : ℕ := 19

/-- A sensor frame of 19 bytes, from `STX` to `ETX`. -/
structure IsSensorFrame (f : Bytes) : Prop where
  size : f.length = frameLen
  starts : f[0]? = some 2
  ends : f[18]? = some 3

/-- The stream is cut into reads of 1 to `msgSize` bytes. -/
structure Segmentation (msgSize : ℕ) (stream : Bytes) (reads : List Bytes) : Prop where
  whole : reads.flatten = stream
  nonempty : ∀ r ∈ reads, r ≠ []
  bounded : ∀ r ∈ reads, r.length ≤ msgSize

/-- The readings that a connection obtains with status `OK`. -/
def readings (served : List Served) : List Reading := served.filterMap (·.reading)

/-- A read decoded on its own. -/
def decodeRead (r : Bytes) : Option Reading := if Decodes r then some (readingOf r) else none

/-- Every frame begins a read that carries it to its end. Where its 17th byte is an `ETX`, its last
byte may be missing. -/
def CarriesFrames (frames reads : List Bytes) : Prop :=
  ∀ i < frames.length, ∃ before r after, reads = before ++ r :: after ∧
    before.flatten.length = frameLen * i ∧
    (frameLen ≤ r.length ∨ 18 ≤ r.length ∧ r[16]? = some 3)

/-- No read that begins inside a frame looks like a packet. -/
def NothingInside (reads : List Bytes) : Prop :=
  ∀ before r after, reads = before ++ r :: after →
    before.flatten.length % frameLen ≠ 0 → ¬ Decodes r

/-! ## What a connection obtains -/

theorem reading_servePacket {σ : Type} {documentUpsert : DocumentUpsert σ}
    (returns : ∀ database collection docKey pubTime db,
      (documentUpsert database collection docKey pubTime db).2 = true)
    (at_ : Surroundings) (facDaq : FacDaq) (db : σ) (p : Bytes) :
    (servePacket documentUpsert at_ facDaq db p).1.reading = decodeRead p := by
  have kept (packet : Str) (reading : Reading) (now : Now) :
      (serveReading at_ facDaq packet reading now).1.reading = some reading := by
    unfold serveReading
    dsimp only
    repeat' split
    all_goals rfl
  unfold servePacket decodeRead
  rw [convertHex2decimal_eq]
  by_cases decodes : Decodes p
  · rw [if_pos decodes, if_pos decodes]
    simp only [returns, if_true]
    exact kept _ _ _
  · rw [if_neg decodes, if_neg decodes]

/-- Each read is decoded on its own, whatever the readings met before. -/
theorem readings_manageClient {σ : Type} {documentUpsert : DocumentUpsert σ}
    (returns : ∀ database collection docKey pubTime db,
      (documentUpsert database collection docKey pubTime db).2 = true)
    (packets : List (Surroundings × Bytes)) (nonempty : ∀ r ∈ packets.map Prod.snd, r ≠ []) :
    ∀ (facDaq : FacDaq) (db : σ), readings (manageClient documentUpsert facDaq db packets) =
      (packets.map Prod.snd).filterMap decodeRead := by
  induction packets with
  | nil => intro facDaq db; rfl
  | cons packet packets ih =>
      intro facDaq db
      obtain ⟨at_, p⟩ := packet
      have some_ : p ≠ [] := nonempty p (by simp)
      have rest := ih (fun r member => nonempty r (by simp at member ⊢; exact .inr member))
      rw [manageClient, if_neg some_]
      simp only [readings, List.filterMap_cons, reading_servePacket returns, List.map_cons]
      cases decodeRead p with
      | none => exact rest _ _
      | some reading => exact congrArg (reading :: ·) (rest _ _)

/-- A read that begins with 18 bytes of a frame gives the reading of the frame. -/
theorem readingOf_prefix {p q : Bytes} (begins : p <+: q) (long : 18 ≤ p.length) :
    readingOf p = readingOf q := by
  obtain ⟨rest, rfl⟩ := begins
  have same (i : ℕ) (inside : i < 18) : byte (p ++ rest) i = byte p i := by
    rw [byte, byte, List.getD_eq_getElem?_getD, List.getD_eq_getElem?_getD,
      List.getElem?_append_left (by omega)]
  simp only [readingOf, same 5 (by decide), same 6 (by decide), same 7 (by decide),
    same 8 (by decide), same 9 (by decide), same 10 (by decide), same 11 (by decide),
    same 12 (by decide), same 13 (by decide), same 14 (by decide), same 15 (by decide),
    same 16 (by decide), same 17 (by decide)]

/-! ## When every frame begins a read -/

/-- Reads that hold nothing are no reads. -/
theorem eq_nil_of_flatten_nil {reads : List Bytes} (nonempty : ∀ r ∈ reads, r ≠ [])
    (empty : reads.flatten = []) : reads = [] := by
  cases reads with
  | nil => rfl
  | cons r reads =>
      rw [List.flatten_cons, List.append_eq_nil_iff] at empty
      exact absurd empty.1 (nonempty r (by simp))

/-- Of two ways to split a list of reads, the one that splits off fewer bytes splits the front of
the other. -/
theorem split_of_length_le {reads front rest before behind : List Bytes}
    (nonempty : ∀ r ∈ reads, r ≠ []) (first : reads = front ++ rest)
    (second : reads = before ++ behind)
    (shorter : front.flatten.length ≤ before.flatten.length) :
    ∃ middle, before = front ++ middle ∧ rest = middle ++ behind := by
  rcases List.append_eq_append_iff.mp (first.symm.trans second) with
    ⟨middle, rfl, rfl⟩ | ⟨middle, rfl, rfl⟩
  · exact ⟨middle, rfl, rfl⟩
  · have empty : middle = [] := by
      refine eq_nil_of_flatten_nil (fun r member => nonempty r ?_) ?_
      · rw [second]
        simp [member]
      · rw [List.flatten_append, List.length_append] at shorter
        exact List.length_eq_zero_iff.mp (by omega)
    exact ⟨[], by simp [empty], by simp [empty]⟩

/-- The reads of one frame, of which the first carries it to its end. -/
theorem decode_reads_of_frame {f r : Bytes} {more : List Bytes} (frame : IsSensorFrame f)
    (whole : r ++ more.flatten = f)
    (carries : frameLen ≤ r.length ∨ 18 ≤ r.length ∧ r[16]? = some 3) :
    (r :: more).filterMap decodeRead = [readingOf f] := by
  have size := frame.size
  rw [← whole, List.length_append] at size
  have long : 18 ≤ r.length := by
    rcases carries with all | ⟨most, -⟩
    · exact Nat.le_trans (by decide) all
    · exact most
  have begins : r <+: f := ⟨_, whole⟩
  have starts : r[0]? = some 2 := by
    rw [← frame.starts, ← whole, List.getElem?_append_left (by omega)]
  have first : decodeRead r = some (readingOf f) := by
    have decodes : Decodes r := by
      refine ⟨starts, long, ?_⟩
      rcases carries with all | ⟨-, etx⟩
      · refine .inr ?_
        rw [← frame.ends, ← whole, List.getElem?_append_left (Nat.lt_of_lt_of_le (by decide) all)]
      · exact .inl etx
    rw [decodeRead, if_pos decodes, readingOf_prefix begins long]
  have others : more.filterMap decodeRead = [] := by
    rw [List.filterMap_eq_nil_iff]
    intro d member
    have short : d.length ≤ more.flatten.length := by
      exact List.Sublist.length_le (List.sublist_flatten_of_mem member)
    have refused : ¬ Decodes d := fun decodes => by
      have enough := decodes.2.1
      simp only [frameLen] at size
      omega
    rw [decodeRead, if_neg refused]
  rw [List.filterMap_cons, first, others]

/-- The reads of the first frame end where the next frame begins. -/
theorem split_first_frame {f : Bytes} {frames reads : List Bytes} (frame : IsSensorFrame f)
    (nonempty : ∀ r ∈ reads, r ≠ []) (whole : reads.flatten = f ++ frames.flatten)
    (carries : CarriesFrames (f :: frames) reads) :
    ∃ r more rest, reads = (r :: more) ++ rest ∧ r ++ more.flatten = f ∧
      rest.flatten = frames.flatten ∧ (frameLen ≤ r.length ∨ 18 ≤ r.length ∧ r[16]? = some 3) := by
  obtain ⟨before, r, after, split, offset, carried⟩ := carries 0 (by simp)
  have none_ : before = [] := by
    refine eq_nil_of_flatten_nil (fun d member => nonempty d (by rw [split]; simp [member])) ?_
    exact List.length_eq_zero_iff.mp offset
  rw [none_, List.nil_append] at split
  have some_ : 0 < r.length := List.length_pos_iff.mpr (nonempty r (by simp [split]))
  cases frames with
  | nil =>
      refine ⟨r, after, [], by rw [split, List.append_nil], ?_, rfl, carried⟩
      rw [split, List.flatten_cons, List.flatten_nil, List.append_nil] at whole
      exact whole
  | cons g frames =>
      obtain ⟨front, d, behind, split', offset', -⟩ := carries 1 (by simp)
      rw [Nat.mul_one] at offset'
      obtain ⟨more, rfl⟩ : ∃ more, front = r :: more := by
        cases front with
        | nil => simp [frameLen] at offset'
        | cons a more =>
            have same : r :: after = a :: (more ++ d :: behind) := split.symm.trans split'
            exact ⟨more, by rw [(List.cons.inj same).1]⟩
      rw [split', List.flatten_append] at whole
      obtain ⟨first, others⟩ := List.append_inj whole (offset'.trans frame.size.symm)
      exact ⟨r, more, d :: behind, split', first, others, carried⟩

/-- What carries the frames carries the ones behind the first. -/
theorem carriesFrames_tail {f : Bytes} {frames reads front rest : List Bytes}
    (nonempty : ∀ r ∈ reads, r ≠ []) (split : reads = front ++ rest)
    (size : front.flatten.length = frameLen) (carries : CarriesFrames (f :: frames) reads) :
    CarriesFrames frames rest := by
  intro i inside
  obtain ⟨before, r, after, split', offset, carried⟩ := carries (i + 1) (by simpa using inside)
  obtain ⟨middle, rfl, rfl⟩ := split_of_length_le nonempty split split'
    (by rw [size, offset, Nat.mul_succ]; omega)
  rw [List.flatten_append, List.length_append, size, Nat.mul_succ] at offset
  exact ⟨middle, r, after, rfl, by omega, carried⟩

/-- When every frame begins a read that carries it, the reads decode to the frames. -/
theorem decode_of_carriesFrames {frames : List Bytes} :
    ∀ {reads : List Bytes}, (∀ f ∈ frames, IsSensorFrame f) → (∀ r ∈ reads, r ≠ []) →
      reads.flatten = frames.flatten → CarriesFrames frames reads →
      reads.filterMap decodeRead = frames.map readingOf := by
  induction frames with
  | nil =>
      intro reads _ nonempty whole _
      rw [eq_nil_of_flatten_nil nonempty whole]
      rfl
  | cons f frames ih =>
      intro reads valid nonempty whole carries
      have frame : IsSensorFrame f := valid f (by simp)
      obtain ⟨r, more, rest, split, first, others, carried⟩ :=
        split_first_frame frame nonempty whole carries
      have size : (r :: more).flatten.length = frameLen := by
        rw [List.flatten_cons, first, frame.size]
      have later := ih (fun g member => valid g (by simp [member]))
        (fun d member => nonempty d (by rw [split]; simp [member])) others
        (carriesFrames_tail nonempty split size carries)
      rw [split, List.filterMap_append, decode_reads_of_frame frame first carried, later]
      rfl

/-! ## When a frame begins no read -/

/-- The offsets of the reads that decode, when the first read is at `offset`. -/
def decodedAt : ℕ → List Bytes → List ℕ
  | _, [] => []
  | offset, r :: reads =>
      (if Decodes r then [offset] else []) ++ decodedAt (offset + r.length) reads

theorem length_decodedAt (offset : ℕ) (reads : List Bytes) :
    (decodedAt offset reads).length = (reads.filterMap decodeRead).length := by
  induction reads generalizing offset with
  | nil => rfl
  | cons r reads ih =>
      rw [decodedAt, List.length_append, ih, List.filterMap_cons, decodeRead]
      by_cases decodes : Decodes r
      · simp [decodes, Nat.add_comm]
      · simp [decodes]

theorem mem_decodedAt {offset o : ℕ} {reads : List Bytes} :
    o ∈ decodedAt offset reads ↔ ∃ before r after, reads = before ++ r :: after ∧
      o = offset + before.flatten.length ∧ Decodes r := by
  induction reads generalizing offset with
  | nil => simp [decodedAt]
  | cons d reads ih =>
      rw [decodedAt, List.mem_append, ih]
      constructor
      · rintro (here | ⟨before, r, after, rfl, rfl, decodes⟩)
        · by_cases decodes : Decodes d
          · rw [if_pos decodes, List.mem_singleton] at here
            exact ⟨[], d, reads, rfl, by simp [here], decodes⟩
          · simp [decodes] at here
        · exact ⟨d :: before, r, after, rfl, by simp [Nat.add_assoc], decodes⟩
      · rintro ⟨before, r, after, split, rfl, decodes⟩
        cases before with
        | nil =>
            obtain ⟨rfl, rfl⟩ := List.cons.inj split
            exact .inl (by simp [decodes])
        | cons b before =>
            obtain ⟨rfl, rfl⟩ := List.cons.inj split
            exact .inr ⟨before, r, after, rfl, by simp [Nat.add_assoc], decodes⟩

/-- The offsets increase. -/
theorem decodedAt_increasing {reads : List Bytes} (nonempty : ∀ r ∈ reads, r ≠ []) (offset : ℕ) :
    (decodedAt offset reads).Pairwise (· < ·) := by
  induction reads generalizing offset with
  | nil => exact List.Pairwise.nil
  | cons r reads ih =>
      have rest := ih (fun d member => nonempty d (by simp [member])) (offset + r.length)
      have some_ : 0 < r.length := List.length_pos_iff.mpr (nonempty r (by simp))
      rw [decodedAt]
      split
      · refine List.Pairwise.cons (fun o member => ?_) rest
        obtain ⟨before, -, -, -, rfl, -⟩ := mem_decodedAt.mp member
        omega
      · exact rest

/-- As many reads that decode as there are frames, none of them inside a frame, begin every
frame. -/
theorem mem_decodedAt_of_length {n : ℕ} {offsets : List ℕ} (increasing : offsets.Pairwise (· < ·))
    (length : offsets.length = n)
    (starts : ∀ o ∈ offsets, o % frameLen = 0 ∧ o < frameLen * n) :
    ∀ i < n, frameLen * i ∈ offsets := by
  have distinct : (offsets.map (· / frameLen)).Nodup := by
    refine List.Nodup.map_on ?_ (increasing.imp Nat.ne_of_lt)
    intro o member o' member' same
    have exact_ := Nat.div_add_mod o frameLen
    have exact' := Nat.div_add_mod o' frameLen
    rw [(starts o member).1] at exact_
    rw [(starts o' member').1] at exact'
    rw [← exact_, ← exact', same]
  have within : (offsets.map (· / frameLen)).toFinset ⊆ Finset.range n := by
    intro i member
    obtain ⟨o, inside, rfl⟩ := List.mem_map.mp (List.mem_toFinset.mp member)
    exact Finset.mem_range.mpr (Nat.div_lt_of_lt_mul (starts o inside).2)
  have all : (offsets.map (· / frameLen)).toFinset = Finset.range n := by
    refine Finset.eq_of_subset_of_card_le within ?_
    rw [List.toFinset_card_of_nodup distinct, List.length_map, length, Finset.card_range]
  intro i inside
  have member : i ∈ (offsets.map (· / frameLen)).toFinset := by
    rw [all]
    exact Finset.mem_range.mpr inside
  obtain ⟨o, found, same⟩ := List.mem_map.mp (List.mem_toFinset.mp member)
  have exact_ := Nat.div_add_mod o frameLen
  rw [(starts o found).1, Nat.add_zero] at exact_
  rw [← same, exact_]
  exact found

theorem length_flatten_frames {frames : List Bytes} (valid : ∀ f ∈ frames, IsSensorFrame f) :
    frames.flatten.length = frameLen * frames.length := by
  induction frames with
  | nil => rfl
  | cons f frames ih =>
      have size := (valid f (by simp)).size
      rw [List.flatten_cons, List.length_append, size, ih fun g member => valid g (by simp [member]),
        List.length_cons, Nat.mul_succ, Nat.add_comm]

/-- When the reads decode to the frames and no read inside a frame does, every frame begins a
read that carries it. -/
theorem carriesFrames_of_decode {frames reads : List Bytes}
    (valid : ∀ f ∈ frames, IsSensorFrame f) (nonempty : ∀ r ∈ reads, r ≠ [])
    (whole : reads.flatten = frames.flatten) (inside : NothingInside reads)
    (obtained : reads.filterMap decodeRead = frames.map readingOf) :
    CarriesFrames frames reads := by
  have length : (decodedAt 0 reads).length = frames.length := by
    rw [length_decodedAt, obtained, List.length_map]
  have starts : ∀ o ∈ decodedAt 0 reads, o % frameLen = 0 ∧ o < frameLen * frames.length := by
    intro o member
    obtain ⟨before, r, after, split, rfl, decodes⟩ := mem_decodedAt.mp member
    rw [Nat.zero_add]
    constructor
    · by_contra within
      exact inside before r after split within decodes
    · have total := congrArg List.length whole
      rw [length_flatten_frames valid, split, List.flatten_append, List.flatten_cons,
        List.length_append, List.length_append] at total
      have long := decodes.2.1
      omega
  intro i bound
  obtain ⟨before, r, after, split, offset, decodes⟩ := mem_decodedAt.mp
    (mem_decodedAt_of_length (decodedAt_increasing nonempty 0) length starts i bound)
  rw [Nat.zero_add] at offset
  refine ⟨before, r, after, split, offset.symm, ?_⟩
  rcases decodes.2.2 with etx | etx
  · exact .inr ⟨decodes.2.1, etx⟩
  · exact .inl (List.getElem?_eq_some_iff.mp etx).1

/-! ## The readings of a connection -/

/-- **The readings are the frames, once and in order**, when every frame begins a read that carries
it to its end; and only then, when no read that begins inside a frame looks like a packet. -/
theorem readings_are_frames {σ : Type} (documentUpsert : DocumentUpsert σ)
    (returns : ∀ database collection docKey pubTime db,
      (documentUpsert database collection docKey pubTime db).2 = true)
    (facDaq : FacDaq) (db : σ) (msgSize : ℕ) (frames : List Bytes)
    (valid : ∀ f ∈ frames, IsSensorFrame f) {packets : List (Surroundings × Bytes)}
    (cut : Segmentation msgSize frames.flatten (packets.map Prod.snd)) :
    (CarriesFrames frames (packets.map Prod.snd) →
        readings (manageClient documentUpsert facDaq db packets) = frames.map readingOf) ∧
      (NothingInside (packets.map Prod.snd) →
        readings (manageClient documentUpsert facDaq db packets) = frames.map readingOf →
          CarriesFrames frames (packets.map Prod.snd)) := by
  rw [readings_manageClient returns packets cut.nonempty]
  exact ⟨decode_of_carriesFrames valid cut.nonempty cut.whole,
    carriesFrames_of_decode valid cut.nonempty cut.whole⟩

theorem isSensorFrame_packetTs0001 : ∀ f ∈ [packetTs0001, packetTs0001], IsSensorFrame f := by
  intro f member
  obtain rfl : f = packetTs0001 := by simpa using member
  exact ⟨rfl, rfl, rfl⟩

/-- A read that meets a Redis that knows TS0001. -/
def readOf (p : Bytes) : Surroundings × Bytes := (redisWith facilityTs0001 true, p)

/-- Two packets that arrive in one read each. -/
theorem readings_are_frames_two :
    readings (manageClient (fun _ _ _ _ db => (db, true)) daqTs0001 ()
      [readOf packetTs0001, readOf packetTs0001]) = [packetTs0001, packetTs0001].map readingOf := by
  have cut : Segmentation 27 [packetTs0001, packetTs0001].flatten
      ([readOf packetTs0001, readOf packetTs0001].map Prod.snd) := by
    refine ⟨rfl, ?_, ?_⟩ <;> decide
  refine (readings_are_frames (fun _ _ _ _ db => (db, true)) (fun _ _ _ _ _ => rfl) daqTs0001 ()
    27 [packetTs0001, packetTs0001] isSensorFrame_packetTs0001 cut).1 ?_
  intro i bound
  have first_or_second : i = 0 ∨ i = 1 := by
    simp only [List.length_cons, List.length_nil] at bound
    omega
  rcases first_or_second with rfl | rfl
  · exact ⟨[], packetTs0001, [packetTs0001], rfl, rfl, .inl (by decide)⟩
  · exact ⟨[packetTs0001], packetTs0001, [], rfl, rfl, .inl (by decide)⟩

/-- **Two packets that arrive together are read as one.** The first read takes 27 bytes of them. -/
theorem coalesced_frames :
    ∃ (frames : List Bytes) (packets : List (Surroundings × Bytes)),
      (∀ f ∈ frames, IsSensorFrame f) ∧
        Segmentation 27 frames.flatten (packets.map Prod.snd) ∧
        readings (manageClient (fun _ _ _ _ db => (db, true)) daqTs0001 () packets) ≠
          frames.map readingOf := by
  refine ⟨[packetTs0001, packetTs0001],
    [readOf (packetTs0001 ++ packetTs0001.take 8), readOf (packetTs0001.drop 8)],
    isSensorFrame_packetTs0001, ⟨rfl, ?_, ?_⟩, ?_⟩
  · decide
  · decide
  · decide +kernel

end WhaleShark.Server
