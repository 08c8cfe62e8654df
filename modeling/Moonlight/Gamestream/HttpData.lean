import Moonlight.Gamestream.Client
import Moonlight.Lib.Memory

/-! The buffer of `libgamestream/http.c` that one request after the other is read into. Each
transfer hands its body to the callback in pieces, and may fail between two of them. Allocation
succeeds. -/
namespace Moonlight

open Lib.Memory

/-- `HTTP_DATA`. -/
structure HttpData where
  memory : Bytes
  size : Nat

/-- What `curl_easy_perform` does: the pieces it passes to the callback, and the text of the error
it returns with, if it does. -/
structure Transfer where
  chunks : List (List Char)
  error : Option String

/-- The buffer of a call of `gs_pair` and `gs_error`. -/
structure HttpState where
  data : HttpData
  gsError : Option String

/-- `http_create_data`. -/
def httpCreateData : HttpData := ⟨[none], 0⟩

/-- `_write_curl`; a write past the end of the block has no meaning. -/
def writeCurl (mem : HttpData) (contents : List Char) : Option HttpData := do
  let realsize := contents.length
  let memory := resize mem.memory (mem.size + realsize + 1)
  let memory ← writeBytes memory mem.size (contents.map some)
  let size := mem.size + realsize
  let memory ← writeBytes memory size [some '\x00']
  return ⟨memory, size⟩

/-- The part of `http_request` before the transfer. -/
def HttpData.recycle (data : HttpData) : HttpData :=
  if data.size > 0 then ⟨[none], 0⟩ else data

/-- `http_request` with the transfer that answers it. -/
def HttpState.httpRequest (s : HttpState) (transfer : Transfer) :
    Option (GsCode × HttpState) := do
  let data ← transfer.chunks.foldlM writeCurl s.data.recycle
  match transfer.error with
  | some error => return (.failed, ⟨data, some error⟩)
  | none => return (.ok, { s with data })

/-- The requests of one call, whatever they return. -/
def HttpState.requests (s : HttpState) (transfers : List Transfer) : Option HttpState :=
  transfers.foldlM (fun s t => (·.2) <$> s.httpRequest t) s

/-- The buffer holds this body and nothing else, with a NUL behind it when it is not empty. -/
structure HttpData.Holds (data : HttpData) (body : List Char) : Prop where
  size : data.size = body.length
  memory : ∃ rest, data.memory = body.map some ++ rest
  terminated : body ≠ [] → data.memory[body.length]? = some (some '\x00')

variable {data : HttpData} {body : List Char}

theorem HttpData.recycle_holds (data : HttpData) : data.recycle.Holds [] := by
  unfold HttpData.recycle
  split
  · exact ⟨rfl, ⟨[none], rfl⟩, fun hne => absurd rfl hne⟩
  · next hsize =>
    exact ⟨by simpa using hsize, ⟨data.memory, rfl⟩, fun h => absurd rfl h⟩

/-- One piece is put behind what was received before. -/
theorem writeCurl_holds (h : data.Holds body) (contents : List Char) :
    ∃ data', writeCurl data contents = some data' ∧ data'.Holds (body ++ contents) := by
  obtain ⟨rest, hmem⟩ := h.memory
  have hfront : (body.map some).length ≤ data.size + contents.length + 1 := by
    rw [List.length_map, h.size]
    omega
  obtain ⟨behind, hresize, hlen⟩ := resize_append (body.map some) rest hfront
  rw [List.length_map, h.size] at hlen
  have hroom : (contents.map some).length ≤ behind.length := by
    rw [List.length_map]
    omega
  have hwrite := writeBytes_behind (i := data.size) (body.map some) behind (contents.map some)
    (by rw [List.length_map, h.size]) hroom
  obtain ⟨last, hlast⟩ : ∃ last, behind.drop (contents.map some).length = [last] := by
    apply List.length_eq_one_iff.mp
    rw [List.length_drop, List.length_map]
    omega
  rw [hlast, ← List.map_append] at hwrite
  have hnul := writeBytes_behind (i := data.size + contents.length)
    ((body ++ contents).map some) [last] [some '\x00'] (by simp [h.size]) (by simp)
  refine ⟨⟨(body ++ contents).map some ++ [some '\x00'], data.size + contents.length⟩, ?_, ?_⟩
  · unfold writeCurl
    rw [hmem]
    dsimp only
    rw [hresize, hwrite, Option.bind_eq_bind, Option.bind_some, hnul]
    simp
  · refine ⟨by simp [h.size], ⟨_, rfl⟩, fun _ => ?_⟩
    dsimp only
    rw [← List.length_map (f := some), List.getElem?_concat_length]

theorem writeCurl_chunks (h : data.Holds body) (chunks : List (List Char)) :
    ∃ data', chunks.foldlM writeCurl data = some data' ∧
      data'.Holds (body ++ chunks.flatten) := by
  induction chunks generalizing data body with
  | nil => exact ⟨data, rfl, by simpa using h⟩
  | cons chunk chunks ih =>
    obtain ⟨next, hnext, hholds⟩ := writeCurl_holds h chunk
    obtain ⟨last, hlast, hbody⟩ := ih hholds
    refine ⟨last, ?_, ?_⟩
    · rw [List.foldlM_cons, hnext]
      exact hlast
    · rwa [List.flatten_cons, ← List.append_assoc]

/-- One request leaves exactly what its transfer delivered, whatever was in the buffer before and
also when the transfer failed. -/
theorem httpRequest_holds (s : HttpState) (transfer : Transfer) :
    ∃ ret t, s.httpRequest transfer = some (ret, t) ∧ t.data.Holds transfer.chunks.flatten ∧
      (ret = .ok ↔ transfer.error = none) := by
  obtain ⟨data, hdata, hholds⟩ := writeCurl_chunks s.data.recycle_holds transfer.chunks
  unfold HttpState.httpRequest
  rw [hdata]
  cases transfer.error with
  | none => exact ⟨.ok, _, rfl, by simpa using hholds, by simp⟩
  | some error => exact ⟨.failed, _, rfl, by simpa using hholds, by simp⟩

/-- No request of a run writes outside of the buffer. -/
theorem requests_defined (s : HttpState) (transfers : List Transfer) :
    ∃ t, s.requests transfers = some t := by
  induction transfers generalizing s with
  | nil => exact ⟨s, rfl⟩
  | cons transfer transfers ih =>
    obtain ⟨ret, next, hnext, _⟩ := httpRequest_holds s transfer
    obtain ⟨t, ht⟩ := ih next
    refine ⟨t, ?_⟩
    unfold HttpState.requests
    rw [List.foldlM_cons, hnext]
    exact ht

/-- However many requests were made with one buffer, and however they ended, the next one leaves
exactly the pieces of its own response in it. -/
theorem buffer_holds_last_body (gsError : Option String) (before : List Transfer)
    (transfer : Transfer) :
    ∃ s ret t, HttpState.requests ⟨httpCreateData, gsError⟩ before = some s ∧
      s.httpRequest transfer = some (ret, t) ∧ (ret = .ok ↔ transfer.error = none) ∧
      (ret = .ok →
        t.data.size = transfer.chunks.flatten.length ∧
        t.data.memory.take t.data.size = transfer.chunks.flatten.map some ∧
        (transfer.chunks.flatten ≠ [] →
          t.data.memory[t.data.size]? = some (some '\x00'))) := by
  obtain ⟨s, hs⟩ := requests_defined ⟨httpCreateData, gsError⟩ before
  obtain ⟨ret, t, ht, hholds, hret⟩ := httpRequest_holds s transfer
  refine ⟨s, ret, t, hs, ht, hret, fun _ => ⟨hholds.size, ?_, fun hne => ?_⟩⟩
  · obtain ⟨rest, hmem⟩ := hholds.memory
    rw [hmem, hholds.size, ← List.length_map (f := some)]
    exact List.take_left
  · rw [hholds.size]
    exact hholds.terminated hne

/-- A body of two pieces, a transfer that fails after one, and an empty body: nothing is left. -/
theorem buffer_holds_last_body_empty :
    let before : List Transfer :=
      [⟨[['a', 'b'], ['c']], none⟩, ⟨[['d']], some "Timeout was reached"⟩]
    ∃ s t, HttpState.requests ⟨httpCreateData, none⟩ before = some s ∧
      s.httpRequest ⟨[], none⟩ = some (.ok, t) ∧ t.data.size = 0 := by
  intro before
  obtain ⟨s, ret, t, hs, ht, hret, hbody⟩ := buffer_holds_last_body none before ⟨[], none⟩
  obtain rfl := hret.mpr rfl
  exact ⟨s, t, hs, ht, (hbody rfl).1⟩

end Moonlight
