import Moonlight.Gamestream.PairOutcome

/-! Which server replies make `gs_pair` write past one of its arrays: the certificate text is
checked before it is decoded, the two other texts are not. -/
namespace Moonlight

open Lib.Cleanup Lib.Stdio

variable {P : Peer} {X : Type} {E : Pairer X} {server : ServerData}

/-- Decoding the text stores no byte at or behind `buffer[n]`. -/
def StoresBelow (n : Nat) (text : List Char) : Prop :=
  ∀ k, 2 * k < text.length → scanHexByte (text.drop (2 * k)) ≠ none → k < n

theorem scanInto_none_iff {buffer : List UInt8} {i : Nat} {s : List Char} :
    scanInto buffer i s = none ↔ scanHexByte s ≠ none ∧ buffer.length ≤ i := by
  unfold scanInto storeByte
  cases scanHexByte s with
  | none => simp
  | some b => simp

theorem scanInto_length {buffer out : List UInt8} {i : Nat} {s : List Char}
    (h : scanInto buffer i s = some out) : out.length = buffer.length := by
  unfold scanInto storeByte at h
  split at h
  · cases h
    rfl
  · split at h
    · cases h
      exact List.length_set
    · cases h

/-- The loop goes wrong exactly at a pair of digits whose place is behind the array. -/
theorem decodeHex_none_iff (text : List Char) (i : Nat) (buffer : List UInt8) :
    decodeHex text i buffer = none ↔
    ∃ k, 2 * k < text.length ∧ scanHexByte (text.drop (2 * k)) ≠ none ∧ buffer.length ≤ i + k := by
  induction text, i, buffer using decodeHex.induct with
  | case1 i buffer => simp [decodeHex]
  | case2 c i buffer =>
    rw [decodeHex, scanInto_none_iff]
    constructor
    · rintro ⟨hscan, hlen⟩
      exact ⟨0, by simp, hscan, hlen⟩
    · rintro ⟨k, hk, hscan, hlen⟩
      obtain rfl : k = 0 := by simp at hk; omega
      exact ⟨hscan, hlen⟩
  | case3 c d rest i buffer ih =>
    have hhead : decodeHex (c :: d :: rest) i buffer =
        (scanInto buffer i (c :: d :: rest)).bind fun out => decodeHex rest (i + 1) out := rfl
    cases hscan : scanInto buffer i (c :: d :: rest) with
    | none =>
      obtain ⟨hdigit, hlen⟩ := scanInto_none_iff.mp hscan
      rw [hhead, hscan]
      exact iff_of_true rfl ⟨0, by simp, hdigit, hlen⟩
    | some out =>
      rw [hhead, hscan, Option.bind_some, ih out, scanInto_length hscan]
      constructor
      · rintro ⟨k, hk, hdigit, hlen⟩
        exact ⟨k + 1, by simp; omega, hdigit, by omega⟩
      · rintro ⟨k, hk, hdigit, hlen⟩
        cases k with
        | zero =>
          have hnone := scanInto_none_iff.mpr ⟨hdigit, hlen⟩
          rw [Nat.mul_zero, List.drop_zero, Nat.add_zero, hscan] at hnone
          cases hnone
        | succ k => exact ⟨k, by simp at hk; omega, hdigit, by omega⟩

theorem decodeHex_array (n : Nat) (contents : Nat → UInt8) (text : List Char) :
    decodeHex text 0 (array n contents) = none ↔ ¬ StoresBelow n text := by
  rw [decodeHex_none_iff, array_length, StoresBelow]
  push Not
  exact exists_congr fun k => by rw [Nat.zero_add]

/-- The only writes past an array are those of `Overruns`. -/
theorem gsPair_none_iff :
    gsPair P E server = none ↔
      (server.paired = false ∧ server.currentGame = 0) ∧ Overruns P E := by
  constructor
  · intro hnone
    by_cases hfree : server.paired = false ∧ server.currentGame = 0
    · refine ⟨hfree, ?_⟩
      by_contra hover
      by_cases hok : (∀ step, Passes P E step) ∧
          ∃ bytes, E.responseEnc ((P.replies 1).text "challengeresponse") = some bytes
      · obtain ⟨w, hrun, _⟩ := gsPair_of_accepts ⟨hfree.1, hfree.2, hok.1⟩ hok.2
        rw [hnone] at hrun
        cases hrun
      · obtain ⟨ret, w, hrun, _⟩ := gsPair_of_stopped hfree hok hover
        rw [hnone] at hrun
        cases hrun
    · obtain ⟨w, hrun, _⟩ := gsPair_of_refused (P := P) (E := E) hfree
      rw [hnone] at hrun
      cases hrun
  · rintro ⟨hfree, hover⟩
    obtain ⟨t, hrun⟩ := (pairing_decides P E server).crash hover
    simp [gsPair, hfree, returnCode, hrun]

/-- The texts that `gs_pair` decodes, with the sizes of the arrays they get into. -/
inductive Decodes (P : Peer) (server : ServerData) : Nat → List Char → Prop
  | plaincert (hpaired : server.paired = false) (hgame : server.currentGame = 0)
      (hanswered : (P.replies 0).Answered)
      (hcert : (cstring ((P.replies 0).text "plaincert")).length ≤ 16383) :
      Decodes P server 8192 (cstring ((P.replies 0).text "plaincert"))
  | challengeresponse {cert : List Char} (hcert : Decodes P server 8192 cert)
      (hanswered : (P.replies 1).Answered) :
      Decodes P server 48 (cstring ((P.replies 1).text "challengeresponse"))
  | pairingsecret {response : List Char} (hresponse : Decodes P server 48 response)
      (hanswered : (P.replies 2).Answered) :
      Decodes P server 272 (cstring ((P.replies 2).text "pairingsecret"))

/-- The bound of the loops, for each `count`, and of the NUL behind the certificate. -/
structure WritesInside (P : Peer) (E : Pairer X) (server : ServerData) : Prop where
  stores : gsPair P E server ≠ none
  counts : ∀ n text, Decodes P server n text → ∀ count < text.length, count / 2 < n
  terminator : ∀ text, Decodes P server 8192 text → text.length / 2 < 8192

/-- What the server has to answer for `gs_pair` to stay inside its arrays. -/
def RepliesFit (P : Peer) (server : ServerData) : Prop :=
  server.paired = false → server.currentGame = 0 → (P.replies 0).Answered →
  (cstring ((P.replies 0).text "plaincert")).length ≤ 16383 → (P.replies 1).Answered →
  (cstring ((P.replies 1).text "challengeresponse")).length ≤ 96 ∧
  ((P.replies 2).Answered → (cstring ((P.replies 2).text "pairingsecret")).length ≤ 544)

theorem storesBelow_of_length {n : Nat} {text : List Char} (h : text.length ≤ 2 * n) :
    StoresBelow n text := fun k hk _ => by omega

theorem counts_below_iff {n : Nat} {text : List Char} :
    (∀ count < text.length, count / 2 < n) ↔ text.length ≤ 2 * n := by
  constructor
  · intro h
    by_contra hlong
    have hlast := h (2 * n) (by omega)
    omega
  · intro h count hcount
    omega

theorem Decodes.plaincert_length {text : List Char} (h : Decodes P server 8192 text) :
    text.length ≤ 16383 := by
  cases h with
  | plaincert _ _ _ hcert => exact hcert

/-- The replies fit exactly if no decoded text has more than two characters for each byte. -/
theorem repliesFit_iff_decodes :
    RepliesFit P server ↔ ∀ n text, Decodes P server n text → text.length ≤ 2 * n := by
  constructor
  · intro hfit n text hdecodes
    cases hdecodes with
    | plaincert _ _ _ hcert => exact Nat.le_succ_of_le hcert
    | challengeresponse hcert hanswered =>
      cases hcert with
      | plaincert hpaired hgame hfirst hsize =>
        exact (hfit hpaired hgame hfirst hsize hanswered).1
    | pairingsecret hresponse hanswered =>
      cases hresponse with
      | challengeresponse hcert hsecond =>
        cases hcert with
        | plaincert hpaired hgame hfirst hsize =>
          exact (hfit hpaired hgame hfirst hsize hsecond).2 hanswered
  · intro h hpaired hgame hfirst hsize hsecond
    have hcert := Decodes.plaincert hpaired hgame hfirst hsize
    have hresponse := Decodes.challengeresponse hcert hsecond
    exact ⟨h 48 _ hresponse, fun hthird => h 272 _ (.pairingsecret hresponse hthird)⟩

/-- The run goes wrong exactly if a text that is decoded stores a byte behind its array. -/
theorem gsPair_none_iff_decodes :
    gsPair P E server = none ↔ ∃ n text, Decodes P server n text ∧ ¬ StoresBelow n text := by
  have henc := decodeHex_array 48 E.stack.challengeResponseEnc
    (cstring ((P.replies 1).text "challengeresponse"))
  have hsecret := decodeHex_array 272 E.stack.pairingSecret
    (cstring ((P.replies 2).text "pairingsecret"))
  rw [gsPair_none_iff, Overruns, Pairer.responseEnc, Pairer.pairingSecret, henc, hsecret]
  constructor
  · rintro ⟨⟨hpaired, hgame⟩, ⟨hfirst, hsize⟩, hsecond, hover⟩
    have hresponse := Decodes.challengeresponse (.plaincert hpaired hgame hfirst hsize) hsecond
    rcases hover with hlong | ⟨hthird, hlong⟩
    · exact ⟨48, _, hresponse, hlong⟩
    · exact ⟨272, _, .pairingsecret hresponse hthird, hlong⟩
  · rintro ⟨n, text, hdecodes, hlong⟩
    cases hdecodes with
    | plaincert _ _ _ hcert => exact absurd (storesBelow_of_length (by omega)) hlong
    | challengeresponse hcert hsecond =>
      cases hcert with
      | plaincert hpaired hgame hfirst hsize =>
        exact ⟨⟨hpaired, hgame⟩, ⟨hfirst, hsize⟩, hsecond, Or.inl hlong⟩
    | pairingsecret hresponse hthird =>
      cases hresponse with
      | challengeresponse hcert hsecond =>
        cases hcert with
        | plaincert hpaired hgame hfirst hsize =>
          exact ⟨⟨hpaired, hgame⟩, ⟨hfirst, hsize⟩, hsecond, Or.inr ⟨hthird, hlong⟩⟩

/-- Every write of `gs_pair` stays inside its array, whatever the texts hold, exactly if the two
texts that are not checked are short enough. -/
theorem gsPair_inside_iff (P : Peer) (E : Pairer X) (server : ServerData) :
    WritesInside P E server ↔ RepliesFit P server := by
  rw [repliesFit_iff_decodes]
  constructor
  · intro h n text hdecodes
    exact counts_below_iff.mp (h.counts n text hdecodes)
  · intro h
    refine ⟨fun hnone => ?_, fun n text hdecodes => counts_below_iff.mpr (h n text hdecodes),
      fun text hdecodes => by have := hdecodes.plaincert_length; omega⟩
    obtain ⟨n, text, hdecodes, hlong⟩ := gsPair_none_iff_decodes.mp hnone
    exact hlong (storesBelow_of_length (h n text hdecodes))

/-- A server whose `challengeresponse` is one digit pair longer than the array. -/
def longPeer : Peer where
  replies _ := .body (.document (flatDocument [("paired", ['1']), ("plaincert", ['4', '1']),
    ("challengeresponse", List.replicate 98 '0')]))
  uuid _ := []

theorem longPeer_overruns : gsPair longPeer xorPairer freeServer = none := by
  have hanswered : (longPeer.replies 0).Answered := ⟨_, rfl, by decide⟩
  have hlong : ¬ StoresBelow 48 (cstring ((longPeer.replies 1).text "challengeresponse")) := by
    intro h
    exact absurd (h 48 (by decide) (by decide)) (by decide)
  apply gsPair_none_iff.mpr
  exact ⟨⟨rfl, rfl⟩, ⟨hanswered, by decide⟩, hanswered, Or.inl ((decodeHex_array _ _ _).mpr hlong)⟩

end Moonlight
