import DataGateway.Header
import DataGateway.Payload
import DataGateway.Proofs.Wire.Replacing

/-!
# Dynamic values of payloads

Nine of the records carry dynamic values, at most five levels down: the values of event results,
documents, pages and the contexts of queries. `mapDynamic` replaces each of them and nothing else.
The content checks look at how many values there are and never at a value itself, so a payload with
its values replaced passes the same checks; that is what `mapDynamic_maps` adds for each record.
-/

namespace DataGateway

open MessagePack (Value)
open Layout (rel_map rel_of_isStatic dynamic_maps list_maps dict_maps maps_of_isStatic)

/-- The answer with its body replaced. -/
def Ack.map {β γ : Type} (f : β → γ) (ack : Ack β) : Ack γ :=
  ⟨ack.status, ack.body.map f, ack.exception⟩

/-- The reply with its result replaced. -/
def Reply.map {ρ σ : Type} (f : ρ → σ) (reply : Reply ρ) : Reply σ :=
  ⟨reply.status, reply.result.map f, reply.remoteException⟩

def EventSubResult.mapDynamic (f : Value → Value) (r : EventSubResult) : EventSubResult :=
  { r with values := r.values.map (List.map f) }

def EventResult.mapDynamic (f : Value → Value) (r : EventResult) : EventResult :=
  { r with subResults := r.subResults.map (EventSubResult.mapDynamic f) }

def EventDocument.mapDynamic (f : Value → Value) (d : EventDocument) : EventDocument :=
  { d with records := d.records.map (List.map f) }

def EventDocumentResult.mapDynamic (f : Value → Value) (r : EventDocumentResult) :
    EventDocumentResult :=
  { r with returnValues := r.returnValues.map (Dict.mapValues f) }

def QueryContext.mapDynamic (f : Value → Value) (c : QueryContext) : QueryContext :=
  { c with fieldValues := c.fieldValues.map f }

def QueryPage.mapDynamic (f : Value → Value) (p : QueryPage) : QueryPage :=
  { p with context := p.context.mapDynamic f, hits := p.hits.map (List.map f) }

def NextQueryPage.mapDynamic (f : Value → Value) (n : NextQueryPage) : NextQueryPage :=
  { n with context := n.context.mapDynamic f }

/-- The body with every dynamic value replaced. -/
def DataType.mapDynamic (f : Value → Value) : (type : DataType) → type.Body → type.Body
  | eventAck => Ack.map (List.map (EventResult.mapDynamic f))
  | eventDocument => EventDocument.mapDynamic f
  | eventDocumentAck => Ack.map (List.map (EventDocumentResult.mapDynamic f))
  | queryRequestAck => Ack.map (Reply.map (QueryPage.mapDynamic f))
  | nextQueryPage => NextQueryPage.mapDynamic f
  | connection | connectionAck | event | attachmentRequest | attachmentRequestAck
  | attachmentResponse | attachmentResponseAck | queryRequest => id

/-- The payload with every dynamic value replaced. -/
def Payload.mapDynamic (f : Value → Value) (p : Payload) : Payload :=
  ⟨p.type, p.type.mapDynamic f p.body⟩

/-- The dynamic values in a payload. -/
def Payload.dynamics (p : Payload) : List Value := p.type.record.layout.dynamics p.body

variable {f : Value → Value}

/-! ### Checks see no dynamic value -/

theorem checkRows_map (owner : String) (descriptors : List FieldDescriptor)
    (rows : List (List Value)) :
    checkRows owner descriptors (rows.map (List.map f)) = checkRows owner descriptors rows := by
  unfold checkRows
  rw [List.zipIdx_map, List.find?_map]
  have hpred : (fun e : List Value × Nat => decide (e.1.length ≠ descriptors.length))
      ∘ Prod.map (List.map f) id = fun e => decide (e.1.length ≠ descriptors.length) := by
    funext e
    simp
  rw [hpred]
  cases rows.zipIdx.find? fun e => decide (e.1.length ≠ descriptors.length) <;> simp

private theorem findSome?_values_map (width : Nat) (results : List EventSubResult) :
    ((results.map (EventSubResult.mapDynamic f)).findSome? fun s =>
        s.values.filter fun values => values.length ≠ width)
      = (results.findSome? fun s => s.values.filter fun values => values.length ≠ width).map
        (List.map f) := by
  rw [List.map_findSome?, List.findSome?_map]
  congr 1
  funext s
  simp only [Function.comp, EventSubResult.mapDynamic]
  cases s.values with
  | none => rfl
  | some values =>
      simp only [Option.map_some, Option.filter, List.length_map]
      split <;> rfl

theorem EventResult.check_mapDynamic (r : EventResult) : (r.mapDynamic f).check = r.check := by
  unfold check mapDynamic
  dsimp only
  rw [findSome?_values_map]
  cases r.subResults.findSome? _ <;> simp

theorem EventDocument.check_mapDynamic (d : EventDocument) : (d.mapDynamic f).check = d.check := by
  simp only [check, mapDynamic, checkReturning, checkRows_map, List.length_map]

theorem QueryPage.check_mapDynamic (p : QueryPage) : (p.mapDynamic f).check = p.check := by
  simp only [check, mapDynamic, checkRows_map, List.length_map]

theorem Ack.check_map {β : Type} {name : String} {goesWithSuccess : β → Bool} {h : β → β}
    (hgoes : ∀ b, goesWithSuccess (h b) = goesWithSuccess b) (ack : Ack β) :
    check name goesWithSuccess (ack.map h) = check name goesWithSuccess ack := by
  obtain ⟨status, body, exception⟩ := ack
  cases body with
  | none => rfl
  | some b => simp only [check, map, isSuccess, Option.map_some, hgoes]

theorem Reply.check_map {ρ : Type} {name : String} {resultRequired : Bool} {h : ρ → ρ}
    (reply : Reply ρ) :
    check name resultRequired (reply.map h) = check name resultRequired reply := by
  simp only [check, map, Option.isNone_map]

/-! ### What each record maps to -/

theorem Ack.map_maps {β : Type} {name : String} {body : Layout .value β}
    {goesWithSuccess : β → Bool} {h : β → β} (hbody : ∀ b, body.Maps f b (h b))
    (hgoes : ∀ b, goesWithSuccess (h b) = goesWithSuccess b) (ack : Ack β) :
    (Ack.record name body goesWithSuccess).layout.Maps f ack (ack.map h) :=
  ⟨⟨rfl, rel_map hbody, maps_of_isStatic _ rfl _⟩, check_map hgoes ack⟩

theorem Reply.map_maps {ρ : Type} {name : String} {result : Layout .value ρ}
    {resultRequired : Bool} {h : ρ → ρ} (hresult : ∀ r, result.Maps f r (h r)) (reply : Reply ρ) :
    (Reply.record name result resultRequired).layout.Maps f reply (reply.map h) :=
  ⟨⟨rfl, rel_map hresult, maps_of_isStatic _ rfl _⟩, check_map reply⟩

theorem EventSubResult.mapDynamic_maps (r : EventSubResult) :
    EventSubResult.record.layout.Maps f r (r.mapDynamic f) :=
  ⟨⟨rfl, rel_of_isStatic rfl, rel_of_isStatic rfl, rel_of_isStatic rfl,
    rel_of_isStatic rfl, rel_map fun _ => list_maps dynamic_maps, rfl⟩, rfl⟩

theorem EventResult.mapDynamic_maps (r : EventResult) :
    EventResult.record.layout.Maps f r (r.mapDynamic f) :=
  ⟨⟨rfl, rel_of_isStatic rfl, maps_of_isStatic _ rfl _,
    list_maps EventSubResult.mapDynamic_maps, rfl⟩, r.check_mapDynamic⟩

theorem EventDocument.mapDynamic_maps (d : EventDocument) :
    EventDocument.record.layout.Maps f d (d.mapDynamic f) :=
  ⟨⟨rfl, maps_of_isStatic _ rfl _, list_maps fun _ => list_maps dynamic_maps,
    rel_of_isStatic rfl, rfl⟩, d.check_mapDynamic⟩

theorem EventDocumentResult.mapDynamic_maps (r : EventDocumentResult) :
    EventDocumentResult.record.layout.Maps f r (r.mapDynamic f) :=
  ⟨⟨rfl, rel_of_isStatic rfl, rel_map fun _ => dict_maps rfl dynamic_maps, rfl⟩, rfl⟩

theorem QueryContext.mapDynamic_maps (c : QueryContext) :
    QueryContext.record.layout.Maps f c (c.mapDynamic f) :=
  ⟨⟨rfl, rfl, rfl, rfl, rfl, rel_of_isStatic rfl, maps_of_isStatic _ rfl _,
    list_maps dynamic_maps, maps_of_isStatic _ rfl _, rfl⟩, rfl⟩

theorem QueryPage.mapDynamic_maps (p : QueryPage) :
    QueryPage.record.layout.Maps f p (p.mapDynamic f) :=
  ⟨⟨rfl, rfl, rfl, p.context.mapDynamic_maps, maps_of_isStatic _ rfl _,
    list_maps fun _ => list_maps dynamic_maps, rfl⟩, p.check_mapDynamic⟩

theorem NextQueryPage.mapDynamic_maps (n : NextQueryPage) :
    NextQueryPage.record.layout.Maps f n (n.mapDynamic f) :=
  ⟨⟨n.context.mapDynamic_maps, rfl, rfl⟩, rfl⟩

/-- Replacing the dynamic values of a body is what its layout sees as that. -/
theorem DataType.mapDynamic_maps (type : DataType) (body : type.Body) :
    type.record.layout.Maps f body (type.mapDynamic f body) := by
  cases type with
  | eventAck =>
      exact Ack.map_maps (fun _ => list_maps EventResult.mapDynamic_maps) (fun _ => rfl) body
  | eventDocument => exact EventDocument.mapDynamic_maps body
  | eventDocumentAck =>
      exact Ack.map_maps (fun _ => list_maps EventDocumentResult.mapDynamic_maps)
        (fun _ => rfl) body
  | queryRequestAck =>
      exact Ack.map_maps (Reply.map_maps QueryPage.mapDynamic_maps) (fun _ => rfl) body
  | nextQueryPage => exact NextQueryPage.mapDynamic_maps body
  | _ => exact maps_of_isStatic _ rfl body

namespace Payload

theorem dynamics_mapDynamic (p : Payload) : (p.mapDynamic f).dynamics = p.dynamics.map f :=
  Layout.dynamics_of_maps _ _ _ (p.type.mapDynamic_maps p.body)

/-- Dynamic values replaced by values with the same bytes leave the payload's bytes the same. -/
theorem write_mapDynamic (hf : ∀ v, (f v).encode = v.encode) (p : Payload) :
    (p.mapDynamic f).write = p.write :=
  Layout.write_of_maps hf _ _ _ (p.type.mapDynamic_maps p.body)

end Payload

/-! ### Layouts on the wire -/

theorem DataType.unambiguous (type : DataType) : type.record.layout.unambiguous := by
  cases type <;> rfl

theorem Header.unambiguous : Header.record.row.unambiguous := rfl

end DataGateway
