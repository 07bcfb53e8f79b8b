import DroidHost.Bridge.Message.Codec
import DroidHost.Outcome

/-! A message has one written form, and reading accepts that form and nothing else. -/
namespace DroidHost

namespace Bytes

theorem words_flatMap_ofWord (ws : List UInt32) : words (ws.flatMap ofWord) = ws := by
  induction ws with
  | nil => rfl
  | cons w ws ih =>
    rw [List.flatMap_cons, ofWord, List.cons_append, List.cons_append, List.cons_append,
      List.cons_append, List.nil_append, words, toWord_ofWord, ih]

theorem length_flatMap_ofWord (ws : List UInt32) : (ws.flatMap ofWord).length = 4 * ws.length := by
  induction ws with
  | nil => rfl
  | cons w ws ih =>
    rw [List.flatMap_cons, List.length_append, ih, length_ofWord, List.length_cons]
    omega

theorem flatMap_ofWord_words (n : Nat) {bytes : Bytes} (h : bytes.length = 4 * n) :
    (words bytes).flatMap ofWord = bytes := by
  induction n generalizing bytes with
  | zero =>
    rw [List.length_eq_zero_iff.mp h]
    rfl
  | succ n ih =>
    obtain ⟨a, b, c, d, rest, rfl⟩ : ∃ a b c d rest, bytes = a :: b :: c :: d :: rest := by
      match bytes, h with
      | a :: b :: c :: d :: rest, _ => exact ⟨a, b, c, d, rest, rfl⟩
      | [], h | [_], h | [_, _], h | [_, _, _], h =>
        simp only [List.length_nil, List.length_cons] at h
        omega
    have hrest : rest.length = 4 * n := by
      simp only [List.length_cons] at h
      omega
    rw [words, List.flatMap_cons, ofWord_toWord, ih hrest]
    rfl

end Bytes

namespace Header

def words (h : Header) : List UInt32 :=
  [h.command.word, h.arg0, h.arg1, h.length, h.checksum, h.command.word ^^^ 0xFFFFFFFF]

def encode (h : Header) : Bytes := h.words.flatMap Bytes.ofWord

theorem length_encode (h : Header) : h.encode.length = size := rfl

theorem decode_encode (h : Header) : decode h.encode = .ok h := by
  rw [decode, if_neg (fun hn => hn h.length_encode), encode, Bytes.words_flatMap_ofWord]
  simp only [words, Command.ofWord?_word, ne_eq, not_true_eq_false, if_false]

theorem eq_encode_of_decode {bytes : Bytes} {h : Header} (hd : decode bytes = .ok h) :
    bytes = h.encode := by
  unfold decode at hd
  split at hd
  · cases hd
  · next hsize =>
    have hlength : bytes.length = 4 * 6 := Decidable.not_not.mp hsize
    split at hd
    · next word arg0 arg1 length checksum magic hwords =>
      split at hd
      · cases hd
      · next command hcommand =>
        split at hd
        · cases hd
        · next hmagic =>
          cases hd
          have hword : word = command.word := Command.ofWord?_eq_some.mp hcommand
          have hlast : magic = command.word ^^^ 0xFFFFFFFF := by
            rw [← hword]
            exact Decidable.not_not.mp hmagic
          rw [← Bytes.flatMap_ofWord_words 6 hlength, hwords, hword, hlast]
          rfl
    · cases hd

end Header

namespace Message

/-- The length is cut to a word. -/
def heading (m : Message) : Header :=
  ⟨m.command, m.arg0, m.arg1, UInt32.ofNat m.payload.length, m.checksum⟩

theorem finish_eq_ok {h : Header} {payload : Bytes} {m : Message} :
    h.finish payload = .ok m ↔
      h = m.heading ∧ payload = m.payload ∧ m.payload.length < UInt32.size := by
  unfold Header.finish
  constructor
  · intro hf
    split at hf
    · next hfits =>
      obtain ⟨hlength, hsum⟩ := hfits
      cases hf
      refine ⟨?_, rfl, ?_⟩
      · rw [heading, hlength, UInt32.ofNat_toNat, checksum, hsum]
      · rw [hlength]
        exact h.length.toNat_lt_size
    · cases hf
  · rintro ⟨rfl, rfl, hlt⟩
    have hlength : m.payload.length = m.heading.length.toNat := by
      rw [heading, UInt32.toNat_ofNat_of_lt' hlt]
    rw [if_pos ⟨hlength, rfl⟩]
    rfl

theorem take_encode (m : Message) : m.encode.take Header.size = m.heading.encode :=
  List.take_left' m.length_header

theorem drop_encode (m : Message) : m.encode.drop Header.size = m.payload :=
  List.drop_left' m.length_header

theorem decode_encode {m : Message} (h : m.payload.length < UInt32.size) :
    decode m.encode = .ok m := by
  have hlong : ¬ m.encode.length < Header.size := by
    rw [encode, List.length_append, length_header]
    omega
  have hfinish : m.heading.finish m.payload = .ok m := finish_eq_ok.mpr ⟨rfl, rfl, h⟩
  rw [decode, if_neg hlong, take_encode, Header.decode_encode, drop_encode]
  exact hfinish

theorem eq_encode_of_decode {bytes : Bytes} {m : Message} (hd : decode bytes = .ok m) :
    bytes = m.encode ∧ m.payload.length < UInt32.size := by
  unfold decode at hd
  split at hd
  · cases hd
  · cases hh : Header.decode (bytes.take Header.size) with
    | error e =>
      rw [hh] at hd
      cases hd
    | ok h =>
      rw [hh] at hd
      obtain ⟨rfl, hpayload, hlt⟩ := finish_eq_ok.mp hd
      refine ⟨?_, hlt⟩
      calc bytes = bytes.take Header.size ++ bytes.drop Header.size :=
            (List.take_append_drop _ _).symm
        _ = m.heading.encode ++ m.payload := by rw [Header.eq_encode_of_decode hh, hpayload]
        _ = m.encode := rfl

/-- Bytes are read as a message exactly if they are its written form and its length fits a word, so
writing and reading undo each other. -/
theorem decode_exact (bytes : Bytes) (m : Message) :
    (decode bytes = .ok m ↔ bytes = m.encode ∧ m.payload.length < UInt32.size) ∧
    (m.payload.length < UInt32.size → decode m.encode = .ok m) ∧
    (decode bytes = .ok m → m.encode = bytes) ∧
    ∀ other, decode bytes = .ok m → decode other = .ok m → bytes = other := by
  refine ⟨⟨eq_encode_of_decode, ?_⟩, decode_encode, ?_, ?_⟩
  · rintro ⟨rfl, hlt⟩
    exact decode_encode hlt
  · intro h
    exact (eq_encode_of_decode h).1.symm
  · intro other h hother
    exact (eq_encode_of_decode h).1.trans (eq_encode_of_decode hother).1.symm

example : decode ((encode ⟨.write, 1, 2, [97, 98]⟩).set 24 99) =
    .error (.integrity ⟨2, 2, 195, 197⟩) := by decide +kernel

end Message
end DroidHost
