import WhaleShark.Gateway.WifiReads
import WhaleShark.Server.ManageClient

/-!
# The gateway reads the answer of the server

What the server sends comes to the gateway behind `+IPD`, its length and a colon. `ParserWifiData`
takes a line that begins so for data of the server, and its value, from the colon on, for `OK`, for
`ER` or for neither. So where the server answers truly, the gateway takes the acknowledgement of
a packet exactly if the reading was published, and its refusal exactly if it was not
(`gateway_reads_reply`).
-/

set_option autoImplicit false

namespace WhaleShark.EndToEnd

open Foundations Network Server

/-- What the module hands over: the length, in decimal digits, and the data. -/
def handedOver (digits : List UInt8) (data : Bytes) : List UInt8 :=
  text "+IPD," ++ (digits ++ 0x3A :: data)

/-- What the gateway is to take a reply for. -/
def acknowledges (published : Bool) : NetworkStatus :=
  if published then .receiveData else .refuseData

theorem handedOver_eq (digits : List UInt8) (data : Bytes) :
    handedOver digits data =
      0x2B :: (szCli .receiveData ++ 0x2C :: (digits ++ 0x3A :: data)) := by
  have header : text "+IPD," = 0x2B :: (szCli .receiveData ++ [0x2C]) := by decide +kernel
  rw [handedOver, header]
  simp

theorem reportOf_received (rest : List UInt8) :
    reportOf (szCli .receiveData ++ rest) = some .receiveData := by
  rw [reportOf, List.find?_cons_of_pos (by simp)]

section HandedOver

variable {digits : List UInt8} (number : ∀ b ∈ digits, isDigit b = true) (line : List UInt8)

include number

/-- The length has no byte at which a line or its value is cut. -/
theorem digits_plain : ∀ b ∈ digits, b ≠ 0 ∧ b ≠ 0x3A := by
  intro b member
  have digit := number b member
  refine ⟨?_, ?_⟩
  · rintro rfl
    exact absurd digit (by decide)
  · rintro rfl
    exact absurd digit (by decide)

theorem classify_handedOver :
    classify (handedOver digits line) = some (.received (statusOf line)) := by
  have noNul : ∀ b ∈ szCli .receiveData ++ 0x2C :: digits ++ [0x3A], b ≠ 0 := by
    have name : ∀ b ∈ szCli .receiveData, b ≠ 0 := by decide +kernel
    intro b member
    simp only [List.mem_append, List.mem_cons, List.not_mem_nil, or_false] at member
    rcases member with (own | rfl | digit) | rfl
    · exact name b own
    · decide
    · exact (digits_plain number b digit).1
    · decide
  have noColon : (0x3A : UInt8) ∉ szCli .receiveData ++ 0x2C :: digits := by
    have name : (0x3A : UInt8) ∉ szCli .receiveData := by decide +kernel
    simp only [List.mem_append, List.mem_cons, not_or]
    exact ⟨name, by decide, fun digit => (digits_plain number _ digit).2 rfl⟩
  have value : behindColon (cString (szCli .receiveData ++ 0x2C :: (digits ++ 0x3A :: line))) =
      cString line := by
    have split : szCli .receiveData ++ 0x2C :: (digits ++ 0x3A :: line) =
        szCli .receiveData ++ 0x2C :: digits ++ [0x3A] ++ line := by simp
    rw [split, cString_append noNul, List.append_assoc, List.singleton_append, behindColon,
      dropWhile_ne noColon]
    rfl
  have told : statusOf (cString line) = statusOf line := by
    have ok : ∀ b ∈ text "OK", b ≠ 0 := by decide +kernel
    have er : ∀ b ∈ text "ER", b ≠ 0 := by decide +kernel
    simp only [statusOf, prefix_cString_iff ok, prefix_cString_iff er]
  -- no answer without a plus sign begins so
  have apart {t : List UInt8} {b : UInt8} (first : t.head? = some b) (other : b ≠ 0x2B)
      (rest : List UInt8) : ¬ t <+: 0x2B :: rest := by
    rintro ⟨more, same⟩
    obtain ⟨tail, rfl⟩ := List.head?_eq_some_iff.mp first
    exact other (List.cons.inj same).1
  rw [handedOver_eq, classify, if_neg (@apart _ 0x4F (by decide +kernel) (by decide) _),
    if_neg (@apart _ 0x45 (by decide +kernel) (by decide) _),
    if_neg (@apart _ 0x46 (by decide +kernel) (by decide) _),
    if_neg (@apart _ 0x53 (by decide +kernel) (by decide) _),
    if_neg (@apart _ 0x53 (by decide +kernel) (by decide) _), if_pos (by rfl), List.tail_cons,
    classifyReport, reportOf_received]
  simp only [value, told]

end HandedOver

/-- A true reply says in its first two letters what happened. -/
theorem statusOf_reply {served : Served} (truly : AnswersTruly served) :
    ∃ line, served.replies = [line ++ [cr, lf]] ∧ lf ∉ line ∧
      statusOf line = acknowledges served.published := by
  obtain ⟨reply, sent, ⟨line, rfl, plain⟩, ok, er⟩ := truly
  refine ⟨line, sent, fun inside => ?_, ?_⟩
  · exact (plain lf inside).1 rfl
  · have okText : text "OK" = encode (str "OK") := by rw [encode_ok]; decide +kernel
    have erText : text "ER" = encode (str "ER") := by rw [encode_er]; decide +kernel
    have noCr : cr ∉ encode (str "OK") ∧ cr ∉ encode (str "ER") := by
      rw [encode_ok, encode_er]
      decide
    have saysOk : text "OK" <+: line ↔ served.published = true := by
      rw [okText, ← ok, ← prefix_append_stop noCr.1 [lf] line]
      rfl
    have saysEr : text "ER" <+: line ↔ served.published = false := by
      rw [erText, ← er, ← prefix_append_stop noCr.2 [lf] line]
      rfl
    cases published : served.published with
    | true => rw [statusOf, if_pos (saysOk.mpr published)]; rfl
    | false =>
        have notOk : ¬ text "OK" <+: line := fun says_ => by
          rw [saysOk.mp says_] at published
          cases published
        rw [statusOf, if_neg notOk, if_pos (saysEr.mpr published)]
        rfl

/-- **The gateway reads what the server did.** Where the server answers truly, what the gateway
takes its reply for is the acknowledgement when the reading was published, and the refusal when it
was not. The reply comes in one read, fits into the count of eight bits, and holds no `>`. -/
theorem gateway_reads_reply {served : Served} (truly : AnswersTruly served) {digits : List UInt8}
    (number : ∀ b ∈ digits, isDigit b = true) {env : Network.Surroundings} {w : WifiInfo}
    (compares : w.responseLen ≠ 0) :
    ∃ reply, served.replies = [reply] ∧
      (Looks env w (handedOver digits reply) → (handedOver digits reply).length ≤ 256 →
        (parserWifiData env w (handedOver digits reply).length).answers =
          [.received (acknowledges served.published)]) := by
  obtain ⟨line, sent, whole, tells⟩ := statusOf_reply truly
  refine ⟨_, sent, fun looks short => ?_⟩
  have split : handedOver digits (line ++ [cr, lf]) = handedOver digits line ++ cr :: lf :: [] := by
    simp [handedOver]
  rw [split] at looks short ⊢
  have unbroken : Unbroken cr lf (handedOver digits line) := by
    have noLf : lf ∉ handedOver digits line := by
      have header : lf ∉ text "+IPD," := by decide +kernel
      simp only [handedOver, List.mem_append, List.mem_cons, not_or]
      refine ⟨header, fun digit => ?_, by decide, whole⟩
      exact absurd (number lf digit) (by decide)
    exact fun broken => noLf (broken.subset (by simp))
  have begins : fromAnswer (handedOver digits line ++ cr :: lf :: []) =
      handedOver digits line ++ cr :: lf :: [] := by
    rw [handedOver_eq]
    rfl
  obtain ⟨answers, -⟩ := parserWifiData_line looks
    (by rw [begins]; exact splitLine_append (by decide) [] unbroken) rfl
    (by simp only [List.length_append, List.length_cons, List.length_nil] at short; omega) (by
      intro _
      rw [handedOver_eq, List.tail_cons, Suits, reportOf_received]
      exact compares)
  rw [answers, classify_handedOver number, tells]
  rfl

end WhaleShark.EndToEnd
