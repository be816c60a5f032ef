import DataGateway.Proofs.Message.Legible
import DataGateway.Proofs.Reassembly

/-!
# What comes back of a query's context

The context of a page comes out of a reply and goes back in the request for the next page. Nothing
stands in its way: what was read can be written (`Payload.Legible.nextPage`). What arrives is the
context with every dynamic string that is no text turned into a binary, so it is the context that
was sent if and only if there is no such string in it (`QueryContext.mapDynamic_normal_iff`).
-/

namespace DataGateway

open MessagePack (Value)

theorem QueryContext.mapDynamic_normal_iff {context : QueryContext} :
    context.mapDynamic Value.normal = context ↔ ∀ v ∈ context.fieldValues, v.Textual := by
  have hvalues : context.mapDynamic Value.normal = context
      ↔ context.fieldValues.map Value.normal = context.fieldValues.map id := by
    rw [List.map_id]
    obtain ⟨scrollId, query, deliveredHits, queryStartTime, consistency, lastBucketId, node,
      fieldValues, partitionNames⟩ := context
    simp [mapDynamic]
  rw [hvalues, List.map_inj_left]
  simp only [id_eq, Value.normal_eq_self_iff]

theorem QueryRequestAck.legible_context {ack : QueryRequestAck}
    (h : QueryRequestAck.record.layout.Legible ack) {context : QueryContext}
    (hcontext : QueryRequestAck.context ack = some context) :
    QueryContext.record.layout.Legible context := by
  obtain ⟨page, hpage, rfl⟩ := Option.map_eq_some_iff.1 hcontext
  obtain ⟨reply, hreply, hresult⟩ := Option.bind_eq_some_iff.1 hpage
  have hack := ((Record.legible_iff _ (by decide)).1 h).2
  have hbody := (Layout.legible_required_iff.1 hack).2.of_optional.1 reply hreply
  have hrow := ((Record.legible_iff _ (by decide)).1 hbody).2
  have hshown := (Layout.legible_required_iff.1 hrow).2.of_optional.1 page hresult
  obtain ⟨_, hfields⟩ := (Record.legible_iff QueryPage.record (by decide)).1 hshown
  obtain ⟨_, hfields⟩ := Layout.legible_required_iff.1 hfields
  obtain ⟨_, hfields⟩ := Layout.legible_required_iff.1 hfields
  obtain ⟨_, hfields⟩ := Layout.legible_required_iff.1 hfields
  exact (Layout.legible_required_iff.1 hfields).1

/-- The context of a page that was read can be written into the request for the next page. -/
theorem Payload.Legible.nextPage {ack : QueryRequestAck} (h : Legible ⟨.queryRequestAck, ack⟩)
    {context : QueryContext} (hcontext : QueryRequestAck.context ack = some context)
    {timeout : Int64} (htimeout : 0 ≤ timeout) :
    Legible ⟨.nextQueryPage, (⟨context, timeout⟩ : NextQueryPage)⟩ := by
  have hcheck : NextQueryPage.check ⟨context, timeout⟩ = .ok () := if_neg (Int64.not_lt.2 htimeout)
  refine (Record.legible_iff NextQueryPage.record (by decide)).2 ⟨hcheck, ?_⟩
  refine Layout.legible_required_iff.2 ⟨QueryRequestAck.legible_context h hcontext, ?_⟩
  exact Layout.legible_required_iff.2 ⟨Layout.legible_long timeout, Layout.legible_done⟩

namespace Message

/-- A service that decodes frames, and puts them together if they are slices, gets this message from
them, if it has room for it. -/
def Conveys (frames : List Bytes) (h : Header) (p : Payload) : Prop :=
  (∃ frame, frames = [frame] ∧ Inbound.decode frame = .ok (.message ⟨h, p, ⟨some frame⟩⟩))
    ∨ ∃ bytes, p.encode = .ok bytes ∧ ∀ a : Assembler, a.Reachable → bytes.length ≤ a.maxPayload →
      a.HasRoom h.messageId → a.Reassembles frames ⟨h, p, {}⟩

variable {h : Header} {p : Payload} {frames : List Bytes}

theorem split_mapDynamic {f : Value → Value} (hf : ∀ v, (f v).encode = v.encode) (h : Header)
    (p : Payload) (unit : Nat) : split h (p.mapDynamic f) unit = split h p unit := by
  unfold split
  rw [encode_mapDynamic hf, Payload.encode, Payload.encode, Payload.write_mapDynamic hf]
  rfl

theorem conveys_of_encode {frame : Bytes} (hfits : ∀ v ∈ p.dynamics, v.Fits)
    (hencode : encode h p = .ok frame) : Conveys [frame] h p := by
  obtain ⟨_, _, hspells, hmatch, hshallow⟩ := matches_of_encode hencode hfits
  exact .inl ⟨frame, rfl, Inbound.decode_of_matches hspells hmatch hshallow⟩

theorem conveys_of_split {unit : Nat} (hfits : ∀ v ∈ p.dynamics, v.Fits)
    (hwhole : h.fragmentation = .whole none) (hsplit : split h p unit = .ok frames) :
    Conveys frames h p := by
  obtain ⟨hunit, hpair, bytes, hbytes, hframes⟩ := split_eq_ok.1 hsplit
  split at hframes
  · obtain ⟨frame, hframe, rfl⟩ := hframes
    exact conveys_of_encode hfits hframe
  · rename_i hlarge
    refine .inr ⟨bytes, hbytes, fun a ha hsize hroom => ?_⟩
    exact reassembles_of_encodeFrom ha hwhole hpair hbytes hfits hsize hroom
      (flatten_chunks hunit bytes) (ne_nil_of_mem_chunks hunit bytes)
      (two_le_length_chunks hunit (Nat.lt_of_not_le hlarge)) hframes

end Message

end DataGateway
