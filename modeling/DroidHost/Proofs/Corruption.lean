import DroidHost.Proofs.Codec

/-! What the checks of a message catch. -/
namespace DroidHost

theorem Command.word_inj {c d : Command} : c.word = d.word ↔ c = d := by
  refine ⟨fun h => ?_, congrArg word⟩
  have hsame := congrArg ofWord? h
  rw [ofWord?_word, ofWord?_word] at hsame
  exact Option.some.inj hsame

namespace Bytes

theorem getElem?_words_set (bytes : Bytes) {i j : Nat} (h : i / 4 ≠ j) (v : UInt8) :
    (words (bytes.set i v))[j]? = (words bytes)[j]? := by
  fun_induction words bytes generalizing i j with
  | case1 a b c d rest ih =>
    match i with
    | 0 | 1 | 2 | 3 =>
      cases j with
      | zero => exact absurd rfl h
      | succ j => rfl
    | i + 4 =>
      cases j with
      | zero => rfl
      | succ j => exact ih (i := i) (j := j) (by omega)
  | case2 bytes hshort =>
    match bytes, hshort with
    | [], _ => rfl
    | [_], _ | [_, _], _ | [_, _, _], _ =>
      match i with
      | 0 | 1 | 2 | _ + 3 => rfl
    | a :: b :: c :: d :: rest, hshort => exact absurd rfl (hshort a b c d rest)

theorem foldl_sum (start : UInt32) (bytes : Bytes) :
    bytes.foldl (fun total b => total + b.toUInt32) start = start + sum bytes := by
  induction bytes generalizing start with
  | nil => exact (UInt32.add_zero start).symm
  | cons b bytes ih =>
    have hsum : sum (b :: bytes) = 0 + b.toUInt32 + sum bytes := ih _
    rw [List.foldl_cons, ih, hsum, UInt32.zero_add, UInt32.add_assoc]

theorem sum_cons (b : UInt8) (bytes : Bytes) : sum (b :: bytes) = b.toUInt32 + sum bytes := by
  rw [sum, List.foldl_cons, foldl_sum, UInt32.zero_add]

/-- A change of one byte changes the sum, which is as wide as a byte at least. -/
theorem eq_of_sum_set {bytes : Bytes} {i : Nat} (hi : i < bytes.length) {v : UInt8}
    (h : sum (bytes.set i v) = sum bytes) : v = bytes[i] := by
  induction bytes generalizing i with
  | nil => exact absurd hi (Nat.not_lt_zero i)
  | cons b bytes ih =>
    cases i with
    | zero =>
      rw [List.set_cons_zero, sum_cons, sum_cons, UInt32.add_left_inj] at h
      exact UInt8.toUInt32_inj.mp h
    | succ i =>
      rw [List.set_cons_succ, sum_cons, sum_cons, UInt32.add_right_inj] at h
      exact ih (Nat.lt_of_succ_lt_succ hi) h

end Bytes

namespace Message

theorem words_header (m : Message) : Bytes.words m.header = m.headerWords :=
  Bytes.words_flatMap_ofWord m.headerWords

theorem heading_of_header {m other : Message} (h : other.header = m.header) :
    other.heading = m.heading := by
  have hd : Header.decode other.heading.encode = Header.decode m.heading.encode := congrArg _ h
  rw [Header.decode_encode, Header.decode_encode] at hd
  exact Except.ok.inj hd

theorem eq_of_words {m other : Message} (hpayload : other.payload = m.payload)
    (hfirst : other.arg0 = m.arg0) (hsecond : other.arg1 = m.arg1)
    (hcommand : other.command.word = m.command.word ∨ other.magic = m.magic) : other = m := by
  have hsame : other.command = m.command := by
    rcases hcommand with h | h
    · exact Command.word_inj.mp h
    · exact Command.word_inj.mp ((UInt32.xor_left_inj _).mp h)
  obtain ⟨command, arg0, arg1, payload⟩ := other
  cases hsame
  cases hfirst
  cases hsecond
  cases hpayload
  rfl

theorem header_set_ne {m other : Message} (hpayload : other.payload = m.payload) {i : Nat}
    (hi : i < m.header.length) (hplace : ¬ (4 ≤ i ∧ i < 12)) {v : UInt8} (hv : v ≠ m.header[i]) :
    other.header ≠ m.header.set i v := by
  intro h
  have hword (j : Nat) (hj : i / 4 ≠ j) : other.headerWords[j]? = m.headerWords[j]? := by
    rw [← words_header, ← words_header, h, Bytes.getElem?_words_set _ hj]
  have hsame : other = m := by
    apply eq_of_words hpayload
    · exact Option.some.inj (hword 1 (by omega))
    · exact Option.some.inj (hword 2 (by omega))
    · -- The byte is in one of the two words of the command at most.
      by_cases hfirst : i / 4 = 0
      · exact .inr (Option.some.inj (hword 5 (by omega)))
      · exact .inl (Option.some.inj (hword 0 hfirst))
  have hbyte : other.header[i]? = (m.header.set i v)[i]? := congrArg (·[i]?) h
  rw [hsame, List.getElem?_set_self hi, List.getElem?_eq_getElem hi, Option.some.injEq] at hbyte
  exact hv hbyte.symm

theorem payload_set_ne {m other : Message} (hheader : other.header = m.header) {i : Nat}
    (hi : i < m.payload.length) {v : UInt8} (hv : v ≠ m.payload[i]) :
    other.payload ≠ m.payload.set i v := by
  intro h
  have hsum : other.checksum = m.checksum := congrArg Header.checksum (heading_of_header hheader)
  rw [checksum, h] at hsum
  exact hv (Bytes.eq_of_sum_set hi hsum)

theorem decode_set (m : Message) {i : Nat} (hi : i < m.encode.length) (hplace : ¬ (4 ≤ i ∧ i < 12))
    {v : UInt8} (hv : v ≠ m.encode[i]) (other : Message) :
    decode (m.encode.set i v) ≠ .ok other := by
  intro h
  have hform := (eq_encode_of_decode h).1
  have hlengths : ∀ m' : Message, m'.header.length = other.header.length := fun _ => rfl
  rcases Nat.lt_or_ge i m.header.length with hlt | hge
  · have hset : m.encode.set i v = m.header.set i v ++ m.payload := List.set_append_left _ _ hlt
    obtain ⟨hheader, hpayload⟩ := List.append_inj (hset.symm.trans hform)
      ((List.length_set ..).trans (hlengths m))
    have hbyte : m.encode[i] = m.header[i] := List.getElem_append_left hlt
    exact header_set_ne hpayload.symm hlt hplace (hbyte ▸ hv) hheader.symm
  · have hset : m.encode.set i v = m.header ++ m.payload.set (i - m.header.length) v :=
      List.set_append_right _ _ hge
    obtain ⟨hheader, hpayload⟩ := List.append_inj (hset.symm.trans hform) (hlengths m)
    have hrest : i - m.header.length < m.payload.length := by
      rw [encode, List.length_append] at hi
      omega
    have hbyte : m.encode[i] = m.payload[i - m.header.length] := List.getElem_append_right hge
    exact payload_set_ne hheader.symm hrest (hbyte ▸ hv) hpayload.symm

theorem length_of_decode {m other : Message} (hm : m.payload.length < UInt32.size) {bytes : Bytes}
    (hfront : bytes.take Header.size = m.encode.take Header.size)
    (h : decode bytes = .ok other) : bytes.length = m.encode.length := by
  obtain ⟨rfl, hother⟩ := eq_encode_of_decode h
  rw [take_encode, take_encode] at hfront
  have hlength : UInt32.ofNat other.payload.length = UInt32.ofNat m.payload.length :=
    congrArg Header.length (heading_of_header hfront)
  have hsame := congrArg UInt32.toNat hlength
  rw [UInt32.toNat_ofNat_of_lt' hother, UInt32.toNat_ofNat_of_lt' hm] at hsame
  rw [encode, encode, List.length_append, List.length_append, length_header, length_header, hsame]

theorem decode_short {bytes : Bytes} (h : bytes.length < Header.size) (other : Message) :
    decode bytes ≠ .ok other := by
  rw [decode, if_pos h]
  intro heq
  cases heq

theorem decode_front {m : Message} (hm : m.payload.length < UInt32.size) {bytes : Bytes}
    (hfront : bytes <+: m.encode) (hcut : bytes ≠ m.encode) (other : Message) :
    decode bytes ≠ .ok other := by
  rcases Nat.lt_or_ge bytes.length Header.size with hlt | hge
  · exact decode_short hlt other
  · intro h
    have htake : bytes.take Header.size = m.encode.take Header.size := by
      obtain ⟨rest, hrest⟩ := hfront
      rw [← hrest, List.take_append_of_le_length hge]
    exact hcut (hfront.eq_of_length (length_of_decode hm htake h))

theorem decode_longer {m : Message} (hm : m.payload.length < UInt32.size) {more : Bytes}
    (hmore : more ≠ []) (other : Message) : decode (m.encode ++ more) ≠ .ok other := by
  intro h
  have hlong : Header.size ≤ m.encode.length := by
    rw [encode, List.length_append, length_header]
    exact Nat.le_add_right ..
  have hsame := length_of_decode hm (List.take_append_of_le_length hlong) h
  rw [List.length_append] at hsame
  exact hmore (List.length_eq_zero_iff.mp (by omega))

theorem error_of_never_ok {bytes : Bytes} (h : ∀ other, decode bytes ≠ .ok other) :
    ∃ e, decode bytes = .error e := by
  cases hd : decode bytes with
  | ok other => exact absurd hd (h other)
  | error e => exact ⟨e, rfl⟩

/-- The written form of a message is an error once one byte of it is another, wherever it stands
outside the two arguments, or once it is cut anywhere, or once anything follows it. -/
theorem corruption_detected (m : Message) (hm : m.payload.length < UInt32.size) :
    (∀ (i : Nat) (hi : i < m.encode.length) (v : UInt8), ¬ (4 ≤ i ∧ i < 12) → v ≠ m.encode[i] →
      ∃ e, decode (m.encode.set i v) = .error e) ∧
    (∀ bytes, bytes <+: m.encode → bytes ≠ m.encode → ∃ e, decode bytes = .error e) ∧
    ∀ more, more ≠ [] → ∃ e, decode (m.encode ++ more) = .error e := by
  refine ⟨fun i hi v hplace hv => ?_, fun bytes hfront hcut => ?_, fun more hmore => ?_⟩
  · exact error_of_never_ok (m.decode_set hi hplace hv)
  · exact error_of_never_ok (decode_front hm hfront hcut)
  · exact error_of_never_ok (decode_longer hm hmore)

/-- One letter of the command, one bit of a payload, the last byte cut off, and one byte too
many. -/
theorem corruption_detected_somewhere :
    let m : Message := ⟨.write, 1, 2, [97, 98]⟩
    m.payload.length < UInt32.size ∧ (∃ e, decode (m.encode.set 0 0x4F) = .error e) ∧
      (∃ e, decode (m.encode.set 25 99) = .error e) ∧
      (∃ e, decode m.encode.dropLast = .error e) ∧ ∃ e, decode (m.encode ++ [0]) = .error e := by
  intro m
  have hm : m.payload.length < UInt32.size := by decide
  obtain ⟨hset, hcut, hmore⟩ := corruption_detected m hm
  refine ⟨hm, hset 0 (by decide) _ (by decide) (by decide), ?_, ?_, hmore [0] (by decide)⟩
  · exact hset 25 (by decide) _ (by decide) (by decide)
  · exact hcut _ (List.dropLast_prefix _) (by decide)

end Message
end DroidHost
