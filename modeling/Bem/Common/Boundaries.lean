import Bem.Common.Arrivals

/-!
# The borders of frames

The declared length of a frame decides when its decoder is called, and not what the decoder takes.
Which frames are taken up to their ends.
-/

namespace Bem

open ByteBuffer

namespace MessageFactory

/-- `MAX_NODE_READ_BUFFER_SIZE`: no reader brings more in a call of `Fill`. -/
def maxNodeReadBufferSize : Nat := 1024

section

variable (lib : BsonLibrary)

/-- The factory takes `frame` and nothing else for one message, whatever follows and however much of
that has come: as much as a cursor of 32 bits can stand in, or as one call of `Fill` brings.  `k` bytes
are what the type of the frame has behind a header. -/
def StaysInside (frame : List UInt8) (k : Nat) : Prop :=
  ∃ message,
    (Message.Unknown (frontType frame) ∨ frame.length ≠ headerSize + k → message = .invalid) ∧
    ∀ rest n chunks, frame.length ≤ n → n ≤ (frame ++ rest).length →
      n < max (2 ^ 31) (frame.length + maxNodeReadBufferSize) →
      outcome lib (frame ++ rest) n chunks =
        (message :: (outcome lib rest (n - frame.length) chunks).1,
          (outcome lib rest (n - frame.length) chunks).2)

end

variable {lib : BsonLibrary} {bytes frame : List UInt8} {n k : Nat} {chunks : List (List UInt8)}

/-! ## What a frame takes -/

/-- A frame of fixed width is taken by its width. -/
theorem outcome_width (hwidth : Message.width (frontType bytes) = some k)
    (hsize : headerSize ≤ frontSize bytes) (hn : max (headerSize + k) (frontSize bytes) ≤ n)
    (hlen : n ≤ bytes.length) (hsmall : n < 2 ^ 31) :
    ∃ message, (message = .invalid ↔ Message.Unknown (frontType bytes)) ∧
      outcome lib bytes n chunks =
        (message :: (outcome lib (bytes.drop (headerSize + k)) (n - (headerSize + k)) chunks).1,
          (outcome lib (bytes.drop (headerSize + k)) (n - (headerSize + k)) chunks).2) := by
  have hheader : headerSize = 9 := rfl
  have hbody : ((bytes.take n).drop headerSize).length = n - headerSize := by
    rw [List.length_drop, List.length_take]
    omega
  have htaken : frontTaken lib bytes n = some k := (frontTaken_eq_some_iff hwidth hlen).mpr (by omega)
  have hdecode := @Message.decode_reading lib (frontType bytes) (bytes.take headerSize)
    ((bytes.take n).drop headerSize) (by rw [hbody, List.length_take]; omega)
  rw [← frontTaken, htaken] at hdecode
  obtain ⟨message, hinvalid, hdecodes⟩ := hdecode
  refine ⟨message, hinvalid, ?_⟩
  rw [outcome_whole (by omega) hlen hsize]
  exact resume_takes hsmall hlen (by omega) (frontSize_ne_zero hsize) (by omega) hdecodes

/-! ## Bytes that are left over -/

/-- A header of no type, and nothing behind it. -/
def blank : List UInt8 := [255, 9, 0, 0, 0, 0, 0, 0, 0]

/-- A header that more has to follow. -/
def pending : List UInt8 := [0, 100, 0, 0, 0, 0, 0, 0, 0]

theorem outcome_nil : outcome lib [] 0 [] = ([], false) :=
  outcome_waiting_nil (le_refl _) (by decide)

theorem outcome_pending : outcome lib pending 9 [] = ([], false) :=
  outcome_waiting_nil (by decide) (by decide)

theorem outcome_blank : outcome lib blank 9 [] = ([.invalid], false) := by
  obtain ⟨message, hinvalid, houtcome⟩ := @outcome_width lib blank 9 0 [] (by decide) (by decide)
    (by decide) (by decide) (by decide)
  rw [houtcome, hinvalid.mpr (by decide)]
  show (_ :: (outcome lib [] 0 []).1, (outcome lib [] 0 []).2) = _
  rw [outcome_nil]

theorem leValue_append (low high : List UInt8) :
    leValue (low ++ high) = leValue low + 256 ^ low.length * leValue high := by
  induction low with
  | nil => simp [leValue]
  | cons b low ih =>
    simp only [List.cons_append, leValue, List.length_cons, ih, pow_succ]
    ring

/-- Less than a header, with a header of no type behind it, declares a great length. -/
theorem frontSize_append_blank (hne : bytes ≠ []) (h : bytes.length < headerSize) :
    255 ≤ frontSize (bytes ++ blank) := by
  have hheader : headerSize = 9 := rfl
  cases bytes with
  | nil => exact absurd rfl hne
  | cons type low =>
    rw [List.length_cons] at h
    -- the size ends with the type byte of the blank header, or behind it
    have hsize : ((type :: low ++ blank).drop sizeOffset).take 8 =
        low ++ 255 :: ([9, 0, 0, 0, 0, 0, 0, 0] : List UInt8).take (7 - low.length) := by
      show (low ++ blank).take 8 = _
      rw [List.take_append, List.take_of_length_le (by omega),
        show 8 - low.length = 7 - low.length + 1 by omega]
      rfl
    have hpow : 0 < 256 ^ low.length := Nat.pow_pos (by decide)
    unfold frontSize
    rw [hsize, leValue_append, leValue]
    have hmul := Nat.le_mul_of_pos_left (255 + 256 * leValue (([9, 0, 0, 0, 0, 0, 0, 0] : List UInt8).take
      (7 - low.length))) hpow
    show 255 ≤ _ + _ * (255 + _)
    omega

/-- Bytes that are left over do harm to what may follow. -/
theorem exists_disturbed (hne : bytes ≠ []) (hmax : bytes.length + headerSize ≤ maxSize) :
    ∃ rest, rest.length ≤ headerSize ∧
      outcome lib (bytes ++ rest) (bytes.length + rest.length) [] ≠
        outcome lib rest rest.length [] := by
  have hheader : headerSize = 9 := rfl
  have hpos := List.length_pos_iff.mpr hne
  have hblank : (bytes ++ blank).length = bytes.length + 9 := List.length_append
  have hpending : (bytes ++ pending).length = bytes.length + 9 := List.length_append
  by_cases hwaits : bytes.length + 9 < frontSize (bytes ++ blank)
  · -- the next frame is not seen
    refine ⟨blank, by decide, ?_⟩
    show outcome lib (bytes ++ blank) (bytes.length + 9) [] ≠ outcome lib blank 9 []
    rw [outcome_blank, outcome_waiting_nil (by omega) (by unfold awaited; omega)]
    simp
  have hlen : headerSize ≤ bytes.length := by
    by_contra hshort
    have hlarge := frontSize_append_blank hne (by omega)
    omega
  rw [frontSize_append hlen] at hwaits
  by_cases hundersized : frontSize bytes < headerSize
  · refine ⟨[], by decide, ?_⟩
    show outcome lib (bytes ++ []) bytes.length [] ≠ outcome lib [] 0 []
    rw [List.append_nil, outcome_nil, outcome_undersized hlen (le_refl _) hundersized]
    simp
  · -- a frame that is not there yet comes to something
    refine ⟨pending, by decide, ?_⟩
    show outcome lib (bytes ++ pending) (bytes.length + 9) [] ≠ outcome lib pending 9 []
    have hfront : frontSize (bytes ++ pending) = frontSize bytes := frontSize_append hlen pending
    rw [outcome_pending, outcome_whole (by omega) (by omega) (by omega)]
    exact resume_ne (by omega) (by omega) (by omega) (by omega) (by omega)

/-! ## The frames that are taken up to their ends -/

theorem frontType_append (hne : bytes ≠ []) (rest : List UInt8) :
    frontType (bytes ++ rest) = frontType bytes := by
  cases bytes with
  | nil => exact absurd rfl hne
  | cons type bytes => rfl

theorem ne_nil_of_header (h : headerSize ≤ bytes.length) : bytes ≠ [] := by
  intro hnil
  rw [hnil] at h
  exact absurd h (by decide)

theorem staysInside_of_length (hwidth : Message.width (frontType frame) = some k)
    (hdeclared : frontSize frame = frame.length) (hlen : frame.length = headerSize + k) :
    StaysInside lib frame k := by
  have hheader : headerSize = 9 := rfl
  have hk := Message.width_le hwidth
  have hne : frame ≠ [] := ne_nil_of_header (by omega)
  have hbody : (frame.drop headerSize).length = k := by
    rw [List.length_drop]
    omega
  obtain ⟨message, hparses⟩ := @Message.steady_decode lib _ k hwidth (frame.drop headerSize) hbody
  refine ⟨message, ?_, ?_⟩
  · intro hor
    have hunknown := hor.resolve_right (not_not.mpr hlen)
    have hempty := hparses [] [] (by simp; omega)
    rw [show Message.decode lib (frontType frame) = pure .invalid from if_pos hunknown] at hempty
    exact (EStateM.Result.ok.inj hempty).1.symm
  · intro rest n chunks hn hbound hread
    have hread' : n < max (2 ^ 31) (frame.length + 1024) := hread
    have hfront := frontType_append hne rest
    have hdrop : (frame ++ rest).drop (headerSize + k) = rest := by rw [← hlen, List.drop_left]
    have hdata : ((frame ++ rest).drop headerSize).take k = frame.drop headerSize := by
      rw [List.drop_append_of_le_length (by omega), List.take_left' hbody]
    have hsize : frontSize (frame ++ rest) = frame.length :=
      (frontSize_append (by omega) rest).trans hdeclared
    rw [← hfront, ← hdata] at hparses
    have hdecodes := decodes_of_parses (by omega) hbound (by omega) hparses
    rw [outcome_whole (by omega) hbound (by omega),
      resume_takes (by omega) hbound (by omega) (by omega) (by omega) hdecodes, hdrop, hlen]

/-- A frame that is too short for its type is an error when nothing follows. -/
theorem outcome_short (hwidth : Message.width (frontType frame) = some k)
    (hheader : headerSize ≤ frame.length) (hdeclared : frontSize frame = frame.length)
    (hshort : frame.length < headerSize + k) : outcome lib frame frame.length [] = ([], true) := by
  have hnine : headerSize = 9 := rfl
  have hmax : maxSize = 2 ^ 63 - 1 := rfl
  have hk := Message.width_le hwidth
  have hrefuses : Refuses lib frame frame.length := by
    unfold Refuses
    rw [if_pos (by omega)]
    exact frontTaken_eq_none hwidth (le_refl _) (by omega)
  rw [outcome_whole (by omega) (le_refl _) (by omega)]
  exact resume_refuses (by omega) (le_refl _) hheader (by omega) (by omega) hrefuses

/-- What is left of the body of a frame of no type is taken for the next frame, and does harm to what
follows or is an error at the end of the cursor's range. -/
theorem exists_body_disturbs (hwidth : Message.width (frontType frame) = some 0)
    (hheader : headerSize < frame.length) (hdeclared : frontSize frame = frame.length)
    (hsmall : frame.length < 2 ^ 31) :
    ∃ rest, rest.length ≤ headerSize ∧ outcome lib (frame ++ rest) (frame.length + rest.length) [] ≠
      (.invalid :: (outcome lib rest rest.length []).1, (outcome lib rest rest.length []).2) := by
  have hnine : headerSize = 9 := rfl
  have hmax : maxSize = 2 ^ 63 - 1 := rfl
  have hne : frame ≠ [] := ne_nil_of_header (by omega)
  by_cases hclose : 2 ^ 31 ≤ frame.length + 9
  · -- the cursor does not get behind the next header
    refine ⟨blank, by decide, fun hblank => ?_⟩
    have hsize : frontSize (frame ++ blank) = frontSize frame := frontSize_append (by omega) blank
    have hthrown := @thrown_of_overlong lib (frame ++ blank) (frame.length + 9) [] (by omega)
      (by rw [List.length_append]; exact le_refl _) (by omega) (by omega) hclose
    rw [show frame.length + 9 = frame.length + blank.length from rfl, hblank,
      show blank.length = 9 from rfl, outcome_blank] at hthrown
    cases hthrown
  have hleft : frame.drop headerSize ≠ [] := by
    intro hnil
    have hcount := congrArg List.length hnil
    rw [List.length_drop, List.length_nil] at hcount
    omega
  obtain ⟨rest, hrest, hdisturbed⟩ := @exists_disturbed lib (frame.drop headerSize) hleft
    (by rw [List.length_drop]; omega)
  refine ⟨rest, hrest, fun hinside => hdisturbed ?_⟩
  have htotal : (frame ++ rest).length = frame.length + rest.length := List.length_append
  have hsize : frontSize (frame ++ rest) = frontSize frame := frontSize_append (by omega) rest
  -- in truth the header alone is taken for the message
  obtain ⟨message, -, houtcome⟩ := @outcome_width lib (frame ++ rest) (frame.length + rest.length)
    0 [] (by rw [frontType_append hne]; exact hwidth) (by omega) (by omega) (by omega) (by omega)
  rw [hinside, Nat.add_zero, List.drop_append_of_le_length (by omega)] at houtcome
  have hcount : (frame.drop headerSize).length + rest.length =
      frame.length + rest.length - headerSize := by
    rw [List.length_drop]
    omega
  have hlater := (List.cons.inj (congrArg Prod.fst houtcome)).2
  have hthrown := congrArg Prod.snd houtcome
  rw [hcount]
  exact Prod.ext hlater.symm hthrown.symm

theorem length_of_staysInside (hwidth : Message.width (frontType frame) = some k)
    (hheader : headerSize ≤ frame.length) (hdeclared : frontSize frame = frame.length)
    (hroom : frame.length ≤ maxSize) (h : StaysInside lib frame k) :
    frame.length = headerSize + k := by
  obtain ⟨message, hinvalid, hall⟩ := h
  by_contra hlen
  have hmessage := hinvalid (Or.inr hlen)
  have hinside : ∀ rest : List UInt8, rest.length ≤ headerSize →
      outcome lib (frame ++ rest) (frame.length + rest.length) [] =
        (.invalid :: (outcome lib rest rest.length []).1, (outcome lib rest rest.length []).2) := by
    intro rest hrest
    have hnine : headerSize = 9 := rfl
    have hread := hall rest (frame.length + rest.length) [] (by omega) (by rw [List.length_append])
      (by unfold maxNodeReadBufferSize; omega)
    rw [Nat.add_sub_cancel_left, hmessage] at hread
    exact hread
  have halone : outcome lib frame frame.length [] = ([.invalid], false) := by
    have hnone := hinside [] (Nat.zero_le _)
    rw [List.append_nil, List.length_nil, Nat.add_zero, outcome_nil] at hnone
    exact hnone
  by_cases hlarge : 2 ^ 31 ≤ frame.length
  · have hthrown := @thrown_of_overlong lib frame frame.length [] (by omega) (le_refl _) hroom
      (by omega) hlarge
    rw [halone] at hthrown
    cases hthrown
  by_cases hshort : frame.length < headerSize + k
  · rw [outcome_short hwidth hheader hdeclared hshort] at halone
    cases halone
  by_cases hunknown : Message.Unknown (frontType frame)
  · have hzero : k = 0 := by
      unfold Message.width at hwidth
      rw [if_pos hunknown, Option.some.injEq] at hwidth
      exact hwidth.symm
    subst hzero
    obtain ⟨rest, hrest, hdisturbs⟩ := @exists_body_disturbs lib frame hwidth (by omega) hdeclared
      (by omega)
    exact hdisturbs (hinside rest hrest)
  · -- something else than an `InvalidMessage` is made
    obtain ⟨message', hinvalid', houtcome⟩ := @outcome_width lib frame frame.length k [] hwidth
      (by omega) (by omega) (le_refl _) (by omega)
    rw [halone] at houtcome
    exact hunknown (hinvalid'.mp (List.cons.inj (congrArg Prod.fst houtcome)).1.symm)

theorem stays_inside_iff (lib : BsonLibrary) (frame : List UInt8) (k : Nat)
    (hwidth : Message.width (frontType frame) = some k) (hheader : headerSize ≤ frame.length)
    (hdeclared : frontSize frame = frame.length) (hroom : frame.length ≤ maxSize) :
    StaysInside lib frame k ↔ frame.length = headerSize + k :=
  ⟨length_of_staysInside hwidth hheader hdeclared hroom, staysInside_of_length hwidth hdeclared⟩

theorem stays_inside_notify :
    StaysInside emptyLibrary (frameBytes .taskNotify [7, 0, 0, 0, 3]) 5 :=
  (stays_inside_iff emptyLibrary (frameBytes .taskNotify [7, 0, 0, 0, 3]) 5 (by decide) (by decide)
    (by decide) (by decide)).mpr (by decide)

/-- The one byte behind the header of no type is taken for the first of the next header. -/
theorem untyped_leaves_body :
    Message.width (frontType [0, 10, 0, 0, 0, 0, 0, 0, 0, 0]) = some 0 ∧
      frontSize [0, 10, 0, 0, 0, 0, 0, 0, 0, 0] = 10 ∧
      ¬StaysInside emptyLibrary [0, 10, 0, 0, 0, 0, 0, 0, 0, 0] 0 := by
  refine ⟨by decide, by decide, ?_⟩
  intro h
  have hlen := length_of_staysInside (by decide) (by decide) (by decide) (by decide) h
  exact absurd hlen (by decide)

end MessageFactory

end Bem
