import DroidHost.Bootloader.Command
import DroidHost.Proofs.FrameWait
import DroidHost.Proofs.Numerals

/-! A download is exact: its command, the data in pieces once the bootloader is ready for them, and
the user told of each. -/
namespace DroidHost

namespace Text

theorem toList_padLeft (width : Nat) (fill : Char) (text : String) :
    (padLeft width fill text).toList =
      List.replicate (width - text.length) fill ++ text.toList := by
  rw [padLeft, String.toList_append, String.toList_ofList]

theorem length_padLeft (width : Nat) (fill : Char) (text : String) :
    (padLeft width fill text).length = max width text.length := by
  rw [← String.length_toList, toList_padLeft, List.length_append, List.length_replicate,
    String.length_toList]
  omega

end Text

namespace BootCommand

theorem toList_lengthText (n : Nat) :
    (lengthText n).toList =
      List.replicate (8 - (Text.digits 16 n).length) '0' ++ Nat.toDigits 16 n := by
  rw [lengthText, Text.toList_padLeft, Text.digits, String.toList_ofList]

theorem length_lengthText (n : Nat) :
    (lengthText n).length = max 8 (Text.digits 16 n).length := Text.length_padLeft 8 '0' _

theorem mem_lengthText {n : Nat} {c : Char} (h : c ∈ (lengthText n).toList) :
    c ∈ "0123456789abcdef".toList := by
  have hdigit : ∀ k < 16, Nat.digitChar k ∈ "0123456789abcdef".toList := by decide
  rw [toList_lengthText] at h
  rcases List.mem_append.mp h with h | h
  · rw [List.eq_of_mem_replicate h]
    decide
  · obtain ⟨k, hk, rfl⟩ := Text.mem_toDigits (by decide) h
    exact hdigit k hk

theorem readDigits_lengthText (n : Nat) : Text.readDigits 16 0 (lengthText n).toList = some n := by
  rw [toList_lengthText, Text.readDigits_zeros (by decide)]
  exact Text.readDigits_toDigits (by decide) (by decide) n

theorem head?_lengthText {n : Nat} (h : 8 < (lengthText n).length) :
    (lengthText n).toList.head? ≠ some '0' := by
  have hlong : 8 < (Text.digits 16 n).length := by
    rw [length_lengthText] at h
    omega
  have hn : n ≠ 0 := by
    rintro rfl
    exact absurd hlong (by decide)
  rw [toList_lengthText, Nat.sub_eq_zero_of_le (Nat.le_of_lt hlong)]
  exact Text.head?_toDigits (by decide) (by decide) hn

theorem readyFor?_lengthText {n : Nat} (h : n < UInt64.size) :
    Dialogue.readyFor? (lengthText n) = some n := by
  have hdigits : "0123456789abcdef".toList.any Text.isBlank = false := by decide
  have hclear : ∀ c ∈ (lengthText n).toList, Text.isBlank c = false := by
    intro c hc
    exact Bool.eq_false_iff.mpr (List.any_eq_false.mp hdigits c (mem_lengthText hc))
  have hplus : '+' ∉ "0123456789abcdef".toList := by decide
  have hne : (lengthText n).toList ≠ [] := by
    rw [toList_lengthText]
    exact List.append_ne_nil_of_right_ne_nil _ Nat.toDigits_ne_nil
  rw [Dialogue.readyFor?, Text.trimBlank_of_clear hclear]
  exact Text.readNumber_eq (readDigits_lengthText n) hne (fun hmem => hplus (mem_lengthText hmem)) h

end BootCommand

namespace Dialogue

def tally (total : Nat) : (sent : Nat) → List Bytes → List (Nat × Nat)
  | _, [] => []
  | sent, piece :: rest =>
    (sent + piece.length, total) :: tally total (sent + piece.length) rest

theorem length_tally (total sent : Nat) (pieces : List Bytes) :
    (tally total sent pieces).length = pieces.length := by
  induction pieces generalizing sent with
  | nil => rfl
  | cons piece rest ih => exact congrArg (· + 1) (ih _)

theorem getElem?_tally (total sent : Nat) {pieces : List Bytes} {k : Nat} (h : k < pieces.length) :
    (tally total sent pieces)[k]? =
      some (sent + (pieces.take (k + 1)).flatten.length, total) := by
  induction pieces generalizing sent k with
  | nil => cases h
  | cons piece rest ih =>
    rw [List.take_succ_cons, List.flatten_cons, List.length_append, ← Nat.add_assoc]
    cases k with
    | zero => rfl
    | succ k => exact ih _ (Nat.lt_of_succ_lt_succ h)

theorem lt_of_mem_tally {total sent : Nat} {pieces : List Bytes} (h : ∀ piece ∈ pieces, piece ≠ [])
    {step : Nat × Nat} (hstep : step ∈ tally total sent pieces) : sent < step.1 := by
  induction pieces generalizing sent with
  | nil => cases hstep
  | cons piece rest ih =>
    obtain ⟨hpiece, hrest⟩ := List.forall_mem_cons.mp h
    have hfirst : sent < sent + piece.length :=
      Nat.lt_add_of_pos_right (List.length_pos_iff.mpr hpiece)
    rcases List.mem_cons.mp hstep with rfl | hstep
    · exact hfirst
    · exact Nat.lt_trans hfirst (ih hrest hstep)

theorem tally_increases (total sent : Nat) {pieces : List Bytes}
    (h : ∀ piece ∈ pieces, piece ≠ []) :
    (tally total sent pieces).Pairwise fun step next => step.1 < next.1 := by
  induction pieces generalizing sent with
  | nil => exact .nil
  | cons piece rest ih =>
    obtain ⟨_, hrest⟩ := List.forall_mem_cons.mp h
    exact .cons (fun _ hstep => lt_of_mem_tally hrest hstep) (ih _ hrest)

theorem sendPieces_passed (d : Dialogue) (budget total sent : Nat) (pieces : List Bytes) :
    match sendPieces budget total sent pieces d with
    | .ok _ after => Passed d after (pieces.map (.sent · budget)) [] (tally total sent pieces)
    | .error e after => ∃ out piece rest fault, pieces = out ++ piece :: rest ∧ e = .link fault ∧
        Passed d after (out.map (.sent · budget) ++ [.unsent piece budget fault]) []
          (tally total sent out) := by
  induction pieces generalizing sent d with
  | nil => exact .refl d
  | cons piece rest ih =>
    have hwrite := d.write_passed piece budget
    unfold sendPieces
    cases hw : d.write piece budget with
    | error e mid =>
      rw [hw] at hwrite
      obtain ⟨fault, rfl, hpassed⟩ := hwrite
      rw [bind_of_error _ hw]
      exact ⟨[], piece, rest, fault, rfl, rfl, hpassed⟩
    | ok u mid =>
      rw [hw] at hwrite
      let told := mid.advance (sent + piece.length) total
      have htold : Passed d told [.sent piece budget] [] [(sent + piece.length, total)] :=
        ⟨hwrite.past, hwrite.notes, congrArg (_ :: ·) hwrite.progress⟩
      have htells : (modify (·.advance (sent + piece.length) total) :
          EStateM BootError Dialogue Unit) mid = .ok () told := rfl
      have hrest := ih told (sent + piece.length)
      rw [bind_of_ok _ hw, bind_of_ok _ htells]
      cases hr : sendPieces budget total (sent + piece.length) rest told with
      | ok u after =>
        rw [hr] at hrest
        exact htold.trans hrest
      | error e after =>
        rw [hr] at hrest
        obtain ⟨out, next, more, fault, rfl, rfl, hpassed⟩ := hrest
        exact ⟨piece :: out, next, more, fault, rfl, rfl, htold.trans hpassed⟩

theorem sendData_cases (d : Dialogue) (pieceSize : Nat) (bytes : Bytes) (budget : Nat) :
    let r := sendData pieceSize bytes budget d
    match d.await .data budget with
    | .error e heard => r = .error e heard
    | .ok text heard =>
      match readyFor? text with
      | none => r = .error (.invalidResponse FrameTag.data.name text) heard
      | some accepted =>
        if accepted ≠ bytes.length then r = .error (.transfer bytes.length accepted) heard
        else
          match sendPieces budget bytes.length 0 (Bytes.pieces pieceSize bytes) heard with
          | .error e after => r = .error e after
          | .ok _ after => r = after.await .okay budget := by
  intro r
  cases ha : d.await .data budget with
  | error e heard => exact bind_of_error _ ha
  | ok text heard =>
    have hr : r = _ := bind_of_ok _ ha
    dsimp only
    rw [hr]
    cases readyFor? text with
    | none => rfl
    | some accepted =>
      dsimp only
      split
      · rfl
      · cases hs : sendPieces budget bytes.length 0 (Bytes.pieces pieceSize bytes) heard with
        | error e after => exact bind_of_error _ hs
        | ok u after => exact bind_of_ok _ hs

end Dialogue

namespace BootCommand
open Dialogue

def downloadLine (length : Nat) : Bytes := Text.Utf8.encode ("download:" ++ lengthText length)

/-- How a download can go: its transfers, what the user is told on the way, and its end. -/
inductive Downloaded (settings : BootSettings) (bytes : Bytes) :
    List Transfer → List String → List (Nat × Nat) → Except BootError String → Prop
  | unasked (fault : LinkFault) : Downloaded settings bytes
    [.unsent (downloadLine bytes.length) settings.timeout fault] [] [] (.error (.link fault))
  | unheard {reads : List Transfer} {notes : List String} {e : BootError}
    (hwait : Waited .data settings.timeout reads notes (.error e)) : Downloaded settings bytes
    (.sent (downloadLine bytes.length) settings.timeout :: reads) notes [] (.error e)
  | unclear {reads : List Transfer} {notes : List String} {text : String}
    (hwait : Waited .data settings.timeout reads notes (.ok text))
    (h : readyFor? text = none) : Downloaded settings bytes
    (.sent (downloadLine bytes.length) settings.timeout :: reads) notes []
    (.error (.invalidResponse FrameTag.data.name text))
  | unready {reads : List Transfer} {notes : List String} {text : String} {accepted : Nat}
    (hwait : Waited .data settings.timeout reads notes (.ok text))
    (h : readyFor? text = some accepted) (hne : accepted ≠ bytes.length) :
    Downloaded settings bytes
    (.sent (downloadLine bytes.length) settings.timeout :: reads) notes []
    (.error (.transfer bytes.length accepted))
  | cut {reads : List Transfer} {notes : List String} {text : String}
    (hwait : Waited .data settings.timeout reads notes (.ok text))
    (h : readyFor? text = some bytes.length) {out rest : List Bytes} {piece : Bytes}
    (hpieces : Bytes.pieces settings.chunkSize bytes = out ++ piece :: rest) (fault : LinkFault) :
    Downloaded settings bytes
    (.sent (downloadLine bytes.length) settings.timeout :: reads ++
      (out.map (.sent · settings.timeout) ++ [.unsent piece settings.timeout fault]))
    notes (tally bytes.length 0 out) (.error (.link fault))
  | whole {reads confirmation : List Transfer} {notes more : List String} {text : String}
    {result : Except BootError String}
    (hwait : Waited .data settings.timeout reads notes (.ok text))
    (h : readyFor? text = some bytes.length)
    (hconfirm : Waited .okay settings.timeout confirmation more result) :
    Downloaded settings bytes
    (.sent (downloadLine bytes.length) settings.timeout :: reads ++
      ((Bytes.pieces settings.chunkSize bytes).map (.sent · settings.timeout) ++ confirmation))
    (notes ++ more)
    (tally bytes.length 0 (Bytes.pieces settings.chunkSize bytes)) result

/-- A download goes in one of the ways in which downloads go. -/
theorem run_download (settings : BootSettings) (bytes : Bytes) (d : Dialogue) :
    let r := (download bytes).run settings d
    ∃ transfers notes steps, Downloaded settings bytes transfers notes steps (outcome r) ∧
      d.Passed (final r) transfers notes steps := by
  intro r
  have hasked := d.write_passed (downloadLine bytes.length) settings.timeout
  cases hw : d.write (downloadLine bytes.length) settings.timeout with
  | error e mid =>
    rw [hw] at hasked
    obtain ⟨fault, rfl, hpassed⟩ := hasked
    have hr : r = .error (.link fault) mid := bind_of_error _ hw
    rw [hr]
    exact ⟨_, _, _, .unasked fault, hpassed⟩
  | ok u asked =>
    rw [hw] at hasked
    have hr : r = sendData settings.chunkSize bytes settings.timeout asked :=
      bind_of_ok _ hw
    obtain ⟨reads, notes, hwait, hheard⟩ := asked.await_passed .data settings.timeout
    have hfront := hasked.trans hheard
    have hcases := asked.sendData_cases settings.chunkSize bytes settings.timeout
    rw [hr]
    dsimp only at hcases
    cases ha : asked.await .data settings.timeout with
    | error e heard =>
      rw [ha] at hwait hfront hcases
      rw [hcases]
      exact ⟨_, _, _, .unheard hwait, hfront⟩
    | ok text heard =>
      rw [ha] at hwait hfront hcases
      dsimp only at hcases
      cases hready : readyFor? text with
      | none =>
        rw [hready] at hcases
        rw [hcases]
        exact ⟨_, _, _, .unclear hwait hready, hfront⟩
      | some accepted =>
        rw [hready] at hcases
        dsimp only at hcases
        split at hcases
        · next hne =>
          rw [hcases]
          exact ⟨_, _, _, .unready hwait hready hne, hfront⟩
        · next heq =>
          rw [Decidable.not_not.mp heq] at hready
          have hsent := heard.sendPieces_passed settings.timeout bytes.length 0
            (Bytes.pieces settings.chunkSize bytes)
          split at hcases
          · next e after hs =>
            rw [hs] at hsent
            obtain ⟨out, piece, rest, fault, hpieces, rfl, hpassed⟩ := hsent
            have hall := hfront.trans hpassed
            simp only [List.nil_append, List.append_nil] at hall
            rw [hcases]
            exact ⟨_, _, _, .cut hwait hready hpieces fault, hall⟩
          · next u out hs =>
            rw [hs] at hsent
            obtain ⟨confirmation, more, hconfirm, hpassed⟩ :=
              out.await_passed .okay settings.timeout
            have hall := hfront.trans (hsent.trans hpassed)
            simp only [List.nil_append, List.append_nil] at hall
            rw [hcases]
            exact ⟨_, _, _, .whole hwait hready hconfirm, hall⟩

theorem written_sent (line : Bytes) (budget : Nat) (transfers : List Transfer) :
    written (.sent line budget :: transfers) = line :: written transfers := rfl

theorem written_pieces (pieces : List Bytes) (budget : Nat) :
    written (pieces.map (.sent · budget)) = pieces := by
  induction pieces with
  | nil => rfl
  | cons piece rest ih => exact congrArg (piece :: ·) ih

namespace Downloaded

variable {settings : BootSettings} {bytes : Bytes} {transfers : List Transfer}
  {notes : List String} {steps : List (Nat × Nat)} {result : Except BootError String}

theorem written_out (h : Downloaded settings bytes transfers notes steps result) :
    written transfers = [] ∧ steps = [] ∨
    ∃ out rest, Bytes.pieces settings.chunkSize bytes = out ++ rest ∧
      written transfers = downloadLine bytes.length :: out ∧
      steps = tally bytes.length 0 out := by
  cases h with
  | unasked fault => exact .inl ⟨rfl, rfl⟩
  | unheard hwait =>
    refine .inr ⟨[], _, rfl, ?_, rfl⟩
    rw [written_sent, hwait.writes_nothing]
  | unclear hwait h =>
    refine .inr ⟨[], _, rfl, ?_, rfl⟩
    rw [written_sent, hwait.writes_nothing]
  | unready hwait h hne =>
    refine .inr ⟨[], _, rfl, ?_, rfl⟩
    rw [written_sent, hwait.writes_nothing]
  | cut hwait h hpieces fault =>
    refine .inr ⟨_, _, hpieces, ?_, rfl⟩
    have hlast (piece : Bytes) : written [.unsent piece settings.timeout fault] = [] := rfl
    rw [List.cons_append, written_sent, written_append, written_append, hwait.writes_nothing,
      written_pieces, hlast, List.nil_append, List.append_nil]
  | whole hwait h hconfirm =>
    refine .inr ⟨_, [], (List.append_nil _).symm, ?_, rfl⟩
    rw [List.cons_append, written_sent, written_append, written_append, hwait.writes_nothing,
      written_pieces, hconfirm.writes_nothing, List.nil_append, List.append_nil]

theorem written_front (h : Downloaded settings bytes transfers notes steps result) :
    written transfers <+:
      downloadLine bytes.length :: Bytes.pieces settings.chunkSize bytes := by
  rcases h.written_out with ⟨hnone, _⟩ | ⟨out, rest, hpieces, hwritten, _⟩
  · rw [hnone]
    exact List.nil_prefix
  · rw [hwritten, hpieces]
    exact ⟨rest, rfl⟩

theorem told (h : Downloaded settings bytes transfers notes steps result) :
    steps.length = (written transfers).tail.length ∧
      (∀ k < steps.length, steps[k]? = some
        (((Bytes.pieces settings.chunkSize bytes).take (k + 1)).flatten.length, bytes.length)) ∧
      steps.Pairwise fun step next => step.1 < next.1 := by
  rcases h.written_out with ⟨hnone, rfl⟩ | ⟨out, rest, hpieces, hwritten, rfl⟩
  · rw [hnone]
    exact ⟨rfl, nofun, .nil⟩
  · have hlength : (tally bytes.length 0 out).length = out.length := length_tally ..
    have hsome : ∀ piece ∈ out, piece ≠ [] := by
      intro piece hpiece
      have hmem : piece ∈ Bytes.pieces settings.chunkSize bytes := by
        rw [hpieces]
        exact List.mem_append_left rest hpiece
      rw [← Bytes.pieces_max] at hmem
      exact (Bytes.mem_pieces (Nat.lt_of_lt_of_le Nat.one_pos (Nat.le_max_right ..)) hmem).1
    refine ⟨?_, ?_, tally_increases _ _ hsome⟩
    · rw [hwritten, hlength, List.tail_cons]
    · intro k hk
      rw [hlength] at hk
      rw [getElem?_tally _ _ hk, hpieces, List.take_append_of_le_length hk, Nat.zero_add]

theorem told_last (h : Downloaded settings bytes transfers notes steps result)
    (hall : written transfers = downloadLine bytes.length :: Bytes.pieces settings.chunkSize bytes)
    (hne : bytes ≠ []) : steps.getLast? = some (bytes.length, bytes.length) := by
  obtain ⟨hlength, hsteps, _⟩ := h.told
  have hflat := Bytes.flatten_pieces settings.chunkSize bytes
  rw [hall, List.tail_cons] at hlength
  have hpos : 0 < (Bytes.pieces settings.chunkSize bytes).length := by
    apply List.length_pos_iff.mpr
    intro hnil
    rw [hnil] at hflat
    exact hne hflat.symm
  have hlast := hsteps (steps.length - 1) (by omega)
  have hwhole : steps.length - 1 + 1 = (Bytes.pieces settings.chunkSize bytes).length := by omega
  rw [hwhole, List.take_length, hflat] at hlast
  rw [List.getLast?_eq_getElem?]
  exact hlast

theorem course (h : Downloaded settings bytes transfers notes steps result) :
    let chunks := Bytes.pieces settings.chunkSize bytes
    let put (chunk : Bytes) : Transfer := .sent chunk settings.timeout
    (∃ fault, transfers = [.unsent (downloadLine bytes.length) settings.timeout fault] ∧
      result = .error (.link fault)) ∨
    ∃ reads told reply rest, transfers = put (downloadLine bytes.length) :: reads ++ rest ∧
      Waited .data settings.timeout reads told reply ∧
      match reply with
      | .error e => rest = [] ∧ result = .error e
      | .ok text => Answered .data text reads ∧
        match readyFor? text with
        | none => rest = [] ∧ result = .error (.invalidResponse "DATA" text)
        | some accepted =>
          if accepted ≠ bytes.length then
            rest = [] ∧ result = .error (.transfer bytes.length accepted)
          else
            (∃ out chunk more fault, chunks = out ++ chunk :: more ∧
              rest = out.map put ++ [.unsent chunk settings.timeout fault] ∧
              result = .error (.link fault)) ∨
            ∃ confirmation more, rest = chunks.map put ++ confirmation ∧
              Waited .okay settings.timeout confirmation more result := by
  intro chunks put
  cases h with
  | unasked fault => exact .inl ⟨fault, rfl, rfl⟩
  | unheard hwait => exact .inr ⟨_, _, _, [], (List.append_nil _).symm, hwait, rfl, rfl⟩
  | unclear hwait h =>
    refine .inr ⟨_, _, _, [], (List.append_nil _).symm, hwait, hwait.answered_of_ok, ?_⟩
    rw [h]
    exact ⟨rfl, rfl⟩
  | unready hwait h hne =>
    refine .inr ⟨_, _, _, [], (List.append_nil _).symm, hwait, hwait.answered_of_ok, ?_⟩
    rw [h]
    dsimp only
    rw [if_pos hne]
    exact ⟨rfl, rfl⟩
  | cut hwait h hpieces fault =>
    refine .inr ⟨_, _, _, _, rfl, hwait, hwait.answered_of_ok, ?_⟩
    rw [h]
    dsimp only
    rw [if_neg (not_not_intro rfl)]
    exact .inl ⟨_, _, _, fault, hpieces, rfl, rfl⟩
  | whole hwait h hconfirm =>
    refine .inr ⟨_, _, _, _, rfl, hwait, hwait.answered_of_ok, ?_⟩
    rw [h]
    dsimp only
    rw [if_neg (not_not_intro rfl)]
    exact .inr ⟨_, _, rfl, hconfirm⟩

theorem confirmed {text : String} (h : Downloaded settings bytes transfers notes steps (.ok text)) :
    ∃ front confirmation, transfers = front ++ confirmation ∧
      written front = downloadLine bytes.length :: Bytes.pieces settings.chunkSize bytes ∧
      Answered .okay text confirmation := by
  generalize hresult : (Except.ok text : Except BootError String) = result at h
  cases h with
  | unasked fault => cases hresult
  | unheard hwait => cases hresult
  | unclear hwait h => cases hresult
  | unready hwait h hne => cases hresult
  | cut hwait h hpieces fault => cases hresult
  | whole hwait h hconfirm =>
    rw [← hresult] at hconfirm
    refine ⟨_, _, (List.append_assoc ..).symm, ?_, hconfirm.answered_of_ok⟩
    rw [List.cons_append, written_sent, written_append, hwait.writes_nothing, written_pieces,
      List.nil_append]

end Downloaded
end BootCommand

open BootCommand Dialogue

/-- A download writes the beginning of its command and then of the data in full pieces. The data
follow only an answer that the bootloader is ready for just as many bytes, each piece that is out is
told of once, and a download that succeeds is confirmed behind its last piece. -/
theorem download_exact (settings : BootSettings) (bytes : Bytes) (d : Dialogue) :
    let size := max settings.chunkSize 1
    let chunks := Bytes.pieces settings.chunkSize bytes
    let number := lengthText bytes.length
    let line := Text.Utf8.encode ("download:" ++ number)
    let put (chunk : Bytes) : Transfer := .sent chunk settings.timeout
    let r := (BootCommand.download bytes).run settings d
    (Text.readDigits 16 0 number.toList = some bytes.length ∧
      (∀ c ∈ number.toList, c ∈ "0123456789abcdef".toList) ∧ 8 ≤ number.length ∧
      (8 < number.length → number.toList.head? ≠ some '0') ∧
      (bytes.length < UInt64.size → readyFor? number = some bytes.length)) ∧
    (chunks.flatten = bytes ∧ chunks.length = (bytes.length + (size - 1)) / size ∧
      (∀ chunk ∈ chunks, chunk ≠ [] ∧ chunk.length ≤ size) ∧
      ∀ chunk ∈ chunks.dropLast, chunk.length = size) ∧
    ∃ transfers notes steps, d.Passed (final r) transfers notes steps ∧
      written transfers <+: line :: chunks ∧
      ((∃ fault, transfers = [.unsent line settings.timeout fault] ∧
          outcome r = .error (.link fault)) ∨
        ∃ reads told reply rest, transfers = put line :: reads ++ rest ∧
          Waited .data settings.timeout reads told reply ∧
          match reply with
          | .error e => rest = [] ∧ outcome r = .error e
          | .ok text => Answered .data text reads ∧
            match readyFor? text with
            | none => rest = [] ∧ outcome r = .error (.invalidResponse "DATA" text)
            | some accepted =>
              if accepted ≠ bytes.length then
                rest = [] ∧ outcome r = .error (.transfer bytes.length accepted)
              else
                (∃ out chunk more fault, chunks = out ++ chunk :: more ∧
                  rest = out.map put ++ [.unsent chunk settings.timeout fault] ∧
                  outcome r = .error (.link fault)) ∨
                ∃ confirmation more, rest = chunks.map put ++ confirmation ∧
                  Waited .okay settings.timeout confirmation more (outcome r)) ∧
      steps.length = (written transfers).tail.length ∧
      (∀ k < steps.length, steps[k]? = some ((chunks.take (k + 1)).flatten.length, bytes.length)) ∧
      (steps.Pairwise fun step next => step.1 < next.1) ∧
      (written transfers = line :: chunks → bytes ≠ [] →
        steps.getLast? = some (bytes.length, bytes.length)) ∧
      ∀ text, outcome r = .ok text → ∃ front confirmation, transfers = front ++ confirmation ∧
        written front = line :: chunks ∧ Answered .okay text confirmation := by
  intro size chunks number line put r
  have hsize : 0 < size := Nat.lt_of_lt_of_le Nat.one_pos (Nat.le_max_right ..)
  have hchunks : Bytes.pieces size bytes = chunks := Bytes.pieces_max settings.chunkSize bytes
  have hflat : chunks.flatten = bytes := Bytes.flatten_pieces settings.chunkSize bytes
  have hcount := Bytes.length_pieces hsize bytes
  have hfull := Bytes.full_pieces hsize bytes
  have hsome (chunk : Bytes) (hchunk : chunk ∈ chunks) : chunk ≠ [] ∧ chunk.length ≤ size :=
    Bytes.mem_pieces hsize (hchunks ▸ hchunk)
  rw [hchunks] at hcount hfull
  have hnumber : 8 ≤ number.length := by
    rw [length_lengthText]
    exact Nat.le_max_left ..
  refine ⟨⟨readDigits_lengthText _, fun c hc => mem_lengthText hc, hnumber, head?_lengthText,
    readyFor?_lengthText⟩, ⟨hflat, hcount, hsome, hfull⟩, ?_⟩
  obtain ⟨transfers, notes, steps, hdown, hpassed⟩ := run_download settings bytes d
  obtain ⟨hlength, hsteps, hincreases⟩ := hdown.told
  refine ⟨transfers, notes, steps, hpassed, hdown.written_front, hdown.course, hlength, hsteps,
    hincreases, hdown.told_last, ?_⟩
  intro text hok
  rw [hok] at hdown
  exact hdown.confirmed

example :
    let answer (text : String) : Arrival := .chunk (Text.Utf8.encode text)
    let d : Dialogue := { link := { inbound := [answer "DATA00000002", answer "OKAYdone"] } }
    let r := (BootCommand.download [7, 8]).run { chunkKb := 0 } d
    outcome r = .ok "done" ∧ (final r).progress = [(2, 2), (1, 2)] ∧
      written (final r).link.past.reverse = [Text.Utf8.encode "download:00000002", [7], [8]] := by
  decide +kernel

end DroidHost
