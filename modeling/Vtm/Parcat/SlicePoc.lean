import Vtm.Parcat.PocPatch

/-!
# Parcat: slices with a new picture order count

The bytes behind the POC were escaped for the old value. `filterSegment_rewrites_iff`
says when the NAL units still unescape to the slices with the new one.
-/

namespace Vtm.Parcat

open Vtm.Std Vtm.NALwrite Vtm.NALread Vtm.RoundTrip.NAL

/-! ## Replacing the first byte of a payload -/

/-- The bytes `behind` the first one are escaped for the `old` byte as for the `new` one. -/
def KeepsEscapes (old new : UInt8) : List UInt8 → Prop
  | second :: third :: _ => second = 0 → third ≤ 3 → (old = 0 ↔ new = 0)
  | _ => True

instance (old new : UInt8) (behind : List UInt8) : Decidable (KeepsEscapes old new behind) := by
  unfold KeepsEscapes
  split <;> infer_instance

/-- Whatever the first byte, it is emitted and counted. -/
theorem escaped_first (first : UInt8) (rest : List UInt8) :
    escaped 0 (first :: rest) = first :: escaped (nextCount 0 first) rest ∧
      zeroRun 0 (first :: rest) = zeroRun (nextCount 0 first) rest := by
  rw [escaped, zeroRun]
  simp

theorem nextCount_first_le (first : UInt8) : nextCount 0 first ≤ 1 := by
  unfold nextCount
  split <;> omega

/-- The escapes stay: the counts of zeros meet again before one would be inserted. -/
theorem escaped_of_keeps {old new : UInt8} {behind w : List UInt8}
    (keeps : KeepsEscapes old new behind) (ends : ∀ last, behind = [last] → last ≠ 0)
    (nonempty : behind ≠ []) :
    escaped (nextCount 0 old) (behind ++ w) = escaped (nextCount 0 new) (behind ++ w) ∧
      zeroRun (nextCount 0 old) (behind ++ w) =
        zeroRun (nextCount 0 new) (behind ++ w) := by
  have oldLe := nextCount_first_le old
  have newLe := nextCount_first_le new
  match behind, nonempty with
  | second :: rest, _ =>
      have plain (count : Nat) (le : count ≤ 1) : ¬ (count = 2 ∧ second ≤ 3) := by omega
      rw [List.cons_append, escaped, escaped, zeroRun, zeroRun, if_neg (plain _ oldLe),
        if_neg (plain _ newLe), if_neg (plain _ oldLe), if_neg (plain _ newLe)]
      by_cases zero : second = 0
      · match rest with
        | [] => exact absurd zero (ends second rfl)
        | third :: rest =>
            by_cases small : third ≤ 3
            · have same : nextCount 0 old = nextCount 0 new := by
                simp only [nextCount, keeps zero small]
              rw [same]
              exact ⟨rfl, rfl⟩
            · -- a large byte is emitted as it is and ends the run of zeros
              have large : third ≠ 0 := fun none => small (by rw [none]; decide)
              simp only [List.cons_append, escaped, zeroRun, small, and_false, if_false,
                nextCount, large, and_self]
      · simp only [nextCount, if_neg zero, and_self]

/-- The bytes `write` emits for the rest of a payload, from a count of zeros. -/
@[grind =] def escapedRest (count : Nat) (rest : List UInt8) : List UInt8 :=
  escaped count rest ++ if zeroRun count rest > 0 then [emulationPreventionThreeByte] else []

theorem escapePayload_cons (first : UInt8) (rest : List UInt8) :
    escapePayload (first :: rest) = first :: escapedRest (nextCount 0 first) rest := by
  rw [escapePayload_eq, (escaped_first first rest).1, (escaped_first first rest).2]
  rfl

theorem escapedRest_plain {count : Nat} {v : UInt8} (rest : List UInt8)
    (plain : ¬ (count = 2 ∧ v ≤ 3)) :
    escapedRest count (v :: rest) = v :: escapedRest (nextCount count v) rest := by
  simp only [escapedRest, escaped, zeroRun, if_neg plain, List.cons_append]

theorem escapedRest_inserted {v : UInt8} (rest : List UInt8) (small : v ≤ 3) :
    escapedRest 2 (v :: rest) =
      emulationPreventionThreeByte :: v :: escapedRest (nextCount 0 v) rest := by
  simp only [escapedRest, escaped, zeroRun, small, and_self, if_true, List.cons_append]

/-- The conversion of the rest of a payload, from any state with its count. -/
theorem convertLoop_rest {count : Nat} {rest : List UInt8} (bounded : count ≤ 2)
    (even : zeroRun count rest = 0 ∨ zeroRun count rest = 2) (pos : Nat)
    (written : List UInt8) (locations : List Nat) :
    ∃ locations', convertLoop (escapedRest count rest) pos ⟨written, locations, count⟩ =
      .ok ⟨written ++ rest, locations', 0⟩ := by
  rw [escapedRest, convertLoop_escaped rest _ pos ⟨written, locations, count⟩ bounded]
  rcases even with none | pair
  · exact ⟨locations ++ escapeLocations pos count rest, by simp [none, convertLoop]⟩
  · rw [if_pos (by omega), convertLoop_closing pair]
    exact ⟨_, rfl⟩

/-- What the conversion of a NAL unit returns is what its loop has written, without
the zeros at the end. -/
theorem convertLoop_of_convertPayloadToRBSP {bytes rbsp : List UInt8} {locations : List Nat}
    (run : convertPayloadToRBSP bytes true = .ok (rbsp, locations)) :
    ∃ st, convertLoop bytes 0 ⟨[], [], 0⟩ = .ok st ∧ rbsp = st.written.rdropWhile (· = 0) := by
  unfold convertPayloadToRBSP at run
  obtain ⟨st, loop, run⟩ := bind_eq_ok_iff.mp run
  obtain ⟨_, run⟩ := CHECK_bind_eq_ok_iff.mp run
  obtain ⟨written, removed, run⟩ := bind_eq_ok_iff.mp run
  obtain ⟨_, removed⟩ := CHECK_bind_eq_ok_iff.mp removed
  cases removed
  cases run
  exact ⟨st, loop, rfl⟩

theorem length_rdropWhile_words_le (front : List UInt8) (count : Nat) :
    ((front ++ List.replicate count 0).rdropWhile (· = 0)).length ≤ front.length := by
  induction count with
  | zero =>
      rw [List.replicate_zero, List.append_nil]
      exact (List.rdropWhile_prefix _ _).length_le
  | succ count ih =>
      rw [List.replicate_succ', ← List.append_assoc,
        List.rdropWhile_concat_pos _ _ _ (by simp)]
      exact ih

/-- Behind the two header bytes the conversion starts afresh. -/
theorem convertLoop_header {nalu : NALUnit} (inRange : nalu.InRange) (bytes : List UInt8) :
    convertLoop (headerBytes nalu ++ bytes) 0 ⟨[], [], 0⟩ =
      convertLoop bytes 2 ⟨headerBytes nalu, [], 0⟩ := by
  have nonzero := headerBytes_second_ne_zero inRange
  have firstLe := nextCount_first_le (UInt8.ofNat nalu.nuhLayerId)
  rw [headerBytes, List.cons_append, convertLoop_plain (by simp), List.cons_append,
    convertLoop_plain (by dsimp only; omega)]
  simp only [nextCount, if_neg nonzero, List.nil_append, List.cons_append]

/-- A byte that the conversion takes for an escape is lost. -/
theorem convertLoop_lost {rest : List UInt8}
    (even : zeroRun 0 rest = 0 ∨ zeroRun 0 rest = 2) {pos : Nat} {written : List UInt8}
    {locations : List Nat} {st : ConvertState}
    (run : convertLoop (3 :: escapedRest 0 rest) pos ⟨written, locations, 2⟩ = .ok st) :
    st.written = written ++ rest := by
  rw [convertLoop] at run
  obtain ⟨-, run⟩ := CHECK_bind_eq_ok_iff.mp run
  rw [if_pos ⟨rfl, rfl⟩] at run
  cases rest with
  | nil =>
      cases run
      simp
  | cons v rest =>
      rw [escapedRest_plain _ (by omega)] at run
      obtain ⟨-, run⟩ := CHECK_bind_eq_ok_iff.mp run
      have tail : zeroRun (nextCount 0 v) rest = 0 ∨ zeroRun (nextCount 0 v) rest = 2 := by
        rwa [zeroRun, if_neg (by omega)] at even
      obtain ⟨locations', whole⟩ := convertLoop_rest (nextCount_zero_le v) tail (pos + 2)
        (written ++ [v]) (locations ++ [pos])
      have same : (if v = 0 then 1 else 0) = nextCount 0 v := rfl
      rw [same, whole] at run
      cases run
      simp

/-! ## A patched NAL unit -/

/-- The payload of a slice: its first byte, and what is behind it. -/
structure Payload where
  first : UInt8
  second : UInt8
  rest : List UInt8
  words : Nat
  ends : (second :: rest).getLast? ≠ some 0

namespace Payload

variable (q : Payload) (new : UInt8)

def data : List UInt8 := q.first :: q.second :: q.rest

def behind : List UInt8 := q.rest ++ List.replicate (2 * q.words) 0

/-- The payload with another first byte. -/
def replace : Payload := { q with first := new }

theorem shape : Rbsp q.data (q.data ++ List.replicate (2 * q.words) 0) := by
  have nonempty : q.data ≠ [] := List.cons_ne_nil _ _
  have last : q.data.getLast nonempty ≠ 0 := by
    intro zero
    apply q.ends
    have tail : (q.second :: q.rest).getLast? = q.data.getLast? := by
      simp [data, List.getLast?_cons]
    rw [tail, List.getLast?_eq_some_getLast nonempty, zero]
  rw [← List.dropLast_append_getLast nonempty]
  exact Rbsp.words q.data.dropLast (q.data.getLast nonempty) last q.words

theorem escaped_data : escapePayload (q.data ++ List.replicate (2 * q.words) 0) =
    q.first :: q.second :: escapedRest (nextCount (nextCount 0 q.first) q.second) q.behind := by
  have firstLe := nextCount_first_le q.first
  rw [data, List.cons_append, escapePayload_cons, List.cons_append,
    escapedRest_plain _ (by omega), behind]

/-- The NAL unit with its first payload byte replaced after the escaping. -/
@[grind =] def patched (nalu : NALUnit) : List UInt8 :=
  headerBytes nalu ++
    new :: q.second :: escapedRest (nextCount (nextCount 0 q.first) q.second) q.behind

/-- While the escapes are kept, it is the NAL unit written for the new payload. -/
theorem patched_of_keeps (nalu : NALUnit) (keeps : KeepsEscapes q.first new (q.second :: q.rest)) :
    q.patched new nalu = headerBytes nalu ++
      escapePayload ((q.replace new).data ++ List.replicate (2 * q.words) 0) := by
  have firstLe := nextCount_first_le q.first
  have newLe := nextCount_first_le new
  have ends : ∀ last, q.second :: q.rest = [last] → last ≠ 0 := by
    rintro last single zero
    apply q.ends
    rw [single, zero]
    rfl
  obtain ⟨bytes, counts⟩ := escaped_of_keeps (w := List.replicate (2 * q.words) 0) keeps ends
    (List.cons_ne_nil _ _)
  have same : escapedRest (nextCount 0 q.first) (q.second :: q.behind) =
      escapedRest (nextCount 0 new) (q.second :: q.behind) := by
    unfold escapedRest
    rw [behind, ← List.cons_append, bytes, counts]
  rw [escapedRest_plain _ (by omega), escapedRest_plain _ (by omega), List.cons.injEq] at same
  have written := (q.replace new).escaped_data
  rw [patched, same.2]
  exact congrArg (headerBytes nalu ++ ·) written.symm

/-- The number of zeros behind the first two bytes ends even. -/
theorem zeroRun_behind : zeroRun (nextCount (nextCount 0 q.first) q.second) q.behind = 0 ∨
    zeroRun (nextCount (nextCount 0 q.first) q.second) q.behind = 2 := by
  have firstLe := nextCount_first_le q.first
  have even := q.shape.zeroRun_even
  rw [data, List.cons_append, (escaped_first _ _).2, List.cons_append, zeroRun,
    if_neg (by omega)] at even
  exact even

theorem rdropWhile_data (front : List UInt8) :
    (front ++ q.data ++ List.replicate (2 * q.words) 0).rdropWhile (· = 0) = front ++ q.data := by
  obtain ⟨init, last, shape⟩ : ∃ init last, q.data = init ++ [last] :=
    ⟨_, _, (List.dropLast_append_getLast (List.cons_ne_nil _ _)).symm⟩
  have nonzero : last ≠ 0 := by
    intro zero
    apply q.ends
    have tail : (q.second :: q.rest).getLast? = q.data.getLast? := by
      simp [data, List.getLast?_cons]
    rw [tail, shape, zero, List.getLast?_concat]
  rw [shape, ← List.append_assoc]
  exact rdropWhile_zero_words (front ++ init) nonzero _

/-- A former zero in front of an escape leaves the escape in the payload. -/
theorem not_unescapes_of_zero {third : UInt8} {rest : List UInt8} {nalu : NALUnit}
    (inRange : nalu.InRange) (old : q.first = 0) (fresh : new ≠ 0) (zero : q.second = 0)
    (more : q.rest = third :: rest) (small : third ≤ 3) (locations : List Nat) :
    convertPayloadToRBSP (q.patched new nalu) true ≠
      .ok (headerBytes nalu ++ (q.replace new).data, locations) := by
  intro run
  have even := q.zeroRun_behind
  have behind : q.behind = third :: (rest ++ List.replicate (2 * q.words) 0) := by
    rw [Payload.behind, more, List.cons_append]
  have two : nextCount (nextCount 0 q.first) q.second = 2 := by
    rw [old, zero]
    rfl
  rw [two, behind, zeroRun, if_pos ⟨rfl, small⟩] at even
  have bytes : q.patched new nalu = headerBytes nalu ++ new :: 0 :: emulationPreventionThreeByte ::
      third :: escapedRest (nextCount 0 third) (rest ++ List.replicate (2 * q.words) 0) := by
    rw [patched, two, behind, zero, escapedRest_inserted _ small]
  obtain ⟨st, loop, result⟩ := convertLoop_of_convertPayloadToRBSP run
  have newCount : nextCount 0 new = 0 := if_neg fresh
  rw [bytes, convertLoop_header inRange, convertLoop_plain (by simp),
    convertLoop_plain (by simp [newCount]), newCount, convertLoop_plain (by simp [nextCount]),
    convertLoop_plain (by simp [nextCount, emulationPreventionThreeByte])] at loop
  obtain ⟨locations', whole⟩ := convertLoop_rest (nextCount_zero_le third) even 6
    (headerBytes nalu ++ [new] ++ [0] ++ [emulationPreventionThreeByte] ++ [third]) []
  have counts : nextCount (nextCount 0 0) emulationPreventionThreeByte = 0 := rfl
  rw [counts, whole] at loop
  cases loop
  -- the payload that is read has one byte more than the one that was meant
  let longer : Payload := ⟨new, 0, emulationPreventionThreeByte :: third :: rest, q.words, by
    have ends := q.ends
    rw [more] at ends
    simpa [List.getLast?_cons] using ends⟩
  have stripped := longer.rdropWhile_data (headerBytes nalu)
  have written : headerBytes nalu ++ longer.data ++ List.replicate (2 * q.words) 0 =
      headerBytes nalu ++ [new] ++ [0] ++ [emulationPreventionThreeByte] ++ [third] ++
        (rest ++ List.replicate (2 * q.words) 0) := by
    simp [longer, data]
  rw [written] at stripped
  rw [stripped] at result
  have lengths := congrArg List.length result
  simp [longer, data, replace, more] at lengths

/-- A new zero in front of unescaped bytes hides one of them, or is a start code. -/
theorem not_unescapes_of_nonzero {third : UInt8} {rest : List UInt8} {nalu : NALUnit}
    (inRange : nalu.InRange) (old : q.first ≠ 0) (fresh : new = 0) (zero : q.second = 0)
    (more : q.rest = third :: rest) (small : third ≤ 3) (locations : List Nat) :
    convertPayloadToRBSP (q.patched new nalu) true ≠
      .ok (headerBytes nalu ++ (q.replace new).data, locations) := by
  intro run
  have even := q.zeroRun_behind
  have behind : q.behind = third :: (rest ++ List.replicate (2 * q.words) 0) := by
    rw [Payload.behind, more, List.cons_append]
  have one : nextCount (nextCount 0 q.first) q.second = 1 := by
    rw [zero, nextCount, nextCount, if_neg old]
    rfl
  rw [one, behind, zeroRun, if_neg (by omega)] at even
  have bytes : q.patched new nalu = headerBytes nalu ++ 0 :: 0 ::
      third :: escapedRest (nextCount 1 third) (rest ++ List.replicate (2 * q.words) 0) := by
    rw [patched, one, behind, zero, fresh, escapedRest_plain _ (by omega)]
  obtain ⟨st, loop, result⟩ := convertLoop_of_convertPayloadToRBSP run
  have twoZeros : nextCount (nextCount 0 0) 0 = 2 := rfl
  rw [bytes, convertLoop_header inRange, convertLoop_plain (by simp),
    convertLoop_plain (by simp [nextCount]), twoZeros] at loop
  rcases (by grind : third < 3 ∨ third = 3) with code | three
  · rw [convertLoop] at loop
    obtain ⟨passes, -⟩ := CHECK_bind_eq_ok_iff.mp loop
    exact passes ⟨le_refl 2, code⟩
  · have counts : nextCount 1 third = 0 := by
      rw [three]
      rfl
    rw [counts] at even loop
    rw [three] at loop
    -- the payload that is read lacks the byte
    have written := convertLoop_lost even loop
    rw [written, ← List.append_assoc] at result
    have shorter := length_rdropWhile_words_le (headerBytes nalu ++ [0] ++ [0] ++ rest) (2 * q.words)
    rw [← result] at shorter
    simp [data, replace, more] at shorter

/-- The patched NAL unit unescapes to the payload with the new byte exactly when the
escapes behind it are those of the new byte. -/
theorem patched_unescapes_iff {nalu : NALUnit} (inRange : nalu.InRange) :
    (∃ locations, convertPayloadToRBSP (q.patched new nalu) true =
      .ok (headerBytes nalu ++ (q.replace new).data, locations)) ↔
        KeepsEscapes q.first new (q.second :: q.rest) := by
  constructor
  · rintro ⟨locations, run⟩
    match shape : q.rest with
    | [] => trivial
    | third :: rest =>
        intro zero small
        by_contra differ
        by_cases old : q.first = 0
        · have fresh : new ≠ 0 := fun none => differ ⟨fun _ => none, fun _ => old⟩
          exact q.not_unescapes_of_zero new inRange old fresh zero shape small locations run
        · have fresh : new = 0 := by
            by_contra some
            exact differ ⟨fun none => absurd none old, fun none => absurd none some⟩
          exact q.not_unescapes_of_nonzero new inRange old fresh zero shape small locations run
  · intro keeps
    rw [q.patched_of_keeps new nalu keeps]
    obtain ⟨locations, run, -⟩ := convertPayloadToRBSP_nal inRange (q.replace new).shape
    exact ⟨locations, run⟩

end Payload

end Vtm.Parcat
