import DataGateway.Payload
import DataGateway.Proofs.Wire.Checking

/-!
# Valid payloads

What the content checks of the thirteen payloads come to, said for each record without its check: a
record is valid if its own fields agree with each other and every record in it is valid. Each check
passes exactly on the fields that agree, so all checks at every level pass exactly on the valid
payloads; this is `Payload.checked_iff`.
-/

namespace DataGateway

open MessagePack (Value)

/-- A body that goes with success stands exactly beside a success status, and is valid. -/
structure Ack.Valid {β : Type} (goesWithSuccess : β → Bool) (valid : β → Prop) (ack : Ack β) :
    Prop where
  success_iff : ack.isSuccess = true ↔ ∃ body ∈ ack.body, goesWithSuccess body = true
  body : ∀ body ∈ ack.body, valid body

/-- A success has a result if one is required, and a result is valid. -/
structure Reply.Valid {ρ : Type} (resultRequired : Bool) (valid : ρ → Prop) (reply : Reply ρ) :
    Prop where
  result_isSome : resultRequired = true → reply.status.isSuccess = true →
    reply.result.isSome = true
  result : ∀ result ∈ reply.result, valid result

/-- Fragmentation is on exactly if there is a unit, which is positive. -/
structure Connection.Valid (c : Connection) : Prop where
  supported_iff : c.fragmentationSupported = true ↔ c.transmissionUnit.isSome = true
  unit_pos : ∀ unit ∈ c.transmissionUnit, 0 < unit

def LoginVerdict.Valid : LoginVerdict → Prop
  | accepted connection => connection.Valid
  | rejected _ => True

/-- The values of a sub-result are as many as the descriptors. -/
def EventResult.Valid (r : EventResult) : Prop :=
  ∀ s ∈ r.subResults, ∀ values ∈ s.values, values.length = r.descriptors.length

structure EventDocument.Valid (d : EventDocument) : Prop where
  tableName_ne : d.tableName ≠ ""
  width : ∀ row ∈ d.records, row.length = d.descriptors.length
  returning_mem : ∀ returning ∈ d.returning, ∀ e ∈ returning.entries,
    0 ≤ e.1.toInt ∧ e.1.toInt < d.records.length

structure QueryRequest.Valid (q : QueryRequest) : Prop where
  select_ne : Text.allBlank q.selectString.toList = false
  timeout_nonneg : 0 ≤ q.timeout
  pageSize_pos : ∀ size ∈ q.pageSize, 0 < size

structure QueryPage.Valid (p : QueryPage) : Prop where
  hits_le : (p.hits.length : Int) ≤ p.numberOfHits.toInt
  width : ∀ hit ∈ p.hits, hit.length = p.descriptors.length

/-- The body of a data type is valid. -/
def DataType.Valid : (type : DataType) → type.Body → Prop
  | connection => Connection.Valid
  | connectionAck => Ack.Valid LoginVerdict.isAccepted LoginVerdict.Valid
  | event => fun e => e.statements ≠ []
  | eventAck => Ack.Valid (fun _ => true) fun results => ∀ r ∈ results, r.Valid
  | attachmentRequest => fun r => Text.allBlank r.request.toList = false
  | attachmentRequestAck => Ack.Valid (fun _ => true) (Reply.Valid false fun _ => True)
  | attachmentResponse => fun r => r.result.content.isSome = true
  | attachmentResponseAck => Ack.Valid (fun _ => true) (Reply.Valid true fun _ => True)
  | eventDocument => EventDocument.Valid
  | eventDocumentAck => Ack.Valid (fun _ => true) fun _ => True
  | queryRequest => QueryRequest.Valid
  | queryRequestAck => Ack.Valid (fun _ => true) (Reply.Valid true QueryPage.Valid)
  | nextQueryPage => fun n => 0 ≤ n.timeout

def Payload.Valid (p : Payload) : Prop := p.type.Valid p.body

/-- Every content check in a payload passes. -/
def Payload.Checked (p : Payload) : Prop := p.type.record.layout.Checked p.body

/-! ### What each check passes -/

/-- What a check passes that begins with a guard. -/
private theorem guarded_eq_ok_iff {c : Prop} [Decidable c] {e : ProtocolError}
    {after : Unit → Except ProtocolError Unit} {rest : Except ProtocolError Unit} :
    (if c then throw e >>= after else rest) = .ok () ↔ ¬c ∧ rest = .ok () := by
  split
  · rename_i hc
    simp [hc, bind, Except.bind, throw, throwThe, MonadExceptOf.throw]
  · rename_i hc
    simp [hc]

theorem Ack.check_eq_ok_iff {β : Type} {name : String} {goesWithSuccess : β → Bool} {ack : Ack β} :
    ack.check name goesWithSuccess = .ok ()
      ↔ (ack.isSuccess = true ↔ ∃ body ∈ ack.body, goesWithSuccess body = true) := by
  unfold check
  cases ack.body with
  | none => cases ack.isSuccess <;> simp
  | some body => cases hgoes : goesWithSuccess body <;> cases ack.isSuccess <;> simp [hgoes]

theorem Reply.check_eq_ok_iff {ρ : Type} {name : String} {resultRequired : Bool}
    {reply : Reply ρ} : reply.check name resultRequired = .ok ()
      ↔ (resultRequired = true → reply.status.isSuccess = true → reply.result.isSome = true) := by
  unfold check
  cases resultRequired <;> cases reply.status.isSuccess <;> cases reply.result <;> simp

theorem Connection.check_eq_ok_iff {c : Connection} : c.check = .ok () ↔ c.Valid := by
  have hvalid : c.Valid ↔ (c.fragmentationSupported = true ↔ c.transmissionUnit.isSome = true)
      ∧ ∀ unit ∈ c.transmissionUnit, 0 < unit :=
    ⟨fun h => ⟨h.supported_iff, h.unit_pos⟩, fun h => ⟨h.1, h.2⟩⟩
  rw [hvalid, check]
  cases c.fragmentationSupported <;> cases c.transmissionUnit <;> simp

theorem Event.check_eq_ok_iff {e : Event} : e.check = .ok () ↔ e.statements ≠ [] := by
  unfold check
  split <;> simp_all

theorem AttachmentRequest.check_eq_ok_iff {r : AttachmentRequest} :
    r.check = .ok () ↔ Text.allBlank r.request.toList = false := by
  unfold check
  split <;> simp_all

theorem AttachmentResponse.check_eq_ok_iff {r : AttachmentResponse} :
    r.check = .ok () ↔ r.result.content.isSome = true := by
  unfold check
  cases r.result.content <;> simp

theorem NextQueryPage.check_eq_ok_iff {n : NextQueryPage} : n.check = .ok () ↔ 0 ≤ n.timeout := by
  unfold check
  split <;> simp_all

theorem EventResult.check_eq_ok_iff {r : EventResult} : r.check = .ok () ↔ r.Valid := by
  unfold check Valid
  dsimp only
  split
  · rename_i values hfound
    simp only [reduceCtorEq, false_iff]
    intro hall
    obtain ⟨s, hs, hvalues⟩ := List.exists_of_findSome?_eq_some hfound
    obtain ⟨hmem, hwidth⟩ := Option.filter_eq_some_iff.1 hvalues
    exact of_decide_eq_true hwidth (hall s hs values hmem)
  · rename_i hnone
    simp only [true_iff]
    intro s hs values hvalues
    have hfilter := List.findSome?_eq_none_iff.1 hnone s hs
    rw [Option.filter_eq_none_iff] at hfilter
    simpa using hfilter values hvalues

theorem EventDocument.checkReturning_eq_ok_iff {d : EventDocument} : d.checkReturning = .ok () ↔
    ∀ returning ∈ d.returning, ∀ e ∈ returning.entries,
      0 ≤ e.1.toInt ∧ e.1.toInt < d.records.length := by
  have hkeys : (∀ row ∈ (d.returning.getD .empty).keys,
        0 ≤ row.toInt ∧ row.toInt < d.records.length)
      ↔ ∀ returning ∈ d.returning, ∀ e ∈ returning.entries,
        0 ≤ e.1.toInt ∧ e.1.toInt < d.records.length := by
    cases d.returning <;> simp [Dict.keys, Dict.empty]
  rw [← hkeys, checkReturning]
  dsimp only
  split
  · rename_i row hfound
    have houtside : row.toInt < 0 ∨ d.records.length ≤ row.toInt := by
      simpa using List.find?_some hfound
    simp only [reduceCtorEq, false_iff]
    intro hall
    have := hall row (List.mem_of_find?_eq_some hfound)
    omega
  · rename_i hnone
    simp only [true_iff]
    intro row hrow
    have hinside := List.find?_eq_none.1 hnone row hrow
    simp only [decide_eq_true_eq] at hinside
    omega

theorem EventDocument.check_eq_ok_iff {d : EventDocument} : d.check = .ok () ↔ d.Valid := by
  have hvalid : d.Valid ↔ ¬d.tableName.isEmpty = true ∧
      (checkRows name d.descriptors d.records >>= fun _ => d.checkReturning) = .ok () := by
    have hrest : (checkRows name d.descriptors d.records >>= fun _ => d.checkReturning) = .ok ()
        ↔ checkRows name d.descriptors d.records = .ok () ∧ d.checkReturning = .ok () := by
      cases checkRows name d.descriptors d.records <;> simp [bind, Except.bind]
    rw [hrest, checkRows_eq_ok_iff, checkReturning_eq_ok_iff, String.isEmpty_iff]
    exact ⟨fun h => ⟨h.tableName_ne, h.width, h.returning_mem⟩, fun h => ⟨h.1, h.2.1, h.2.2⟩⟩
  rw [hvalid]
  exact guarded_eq_ok_iff

theorem QueryRequest.check_eq_ok_iff {q : QueryRequest} : q.check = .ok () ↔ q.Valid := by
  have hvalid : q.Valid ↔ ¬Text.allBlank q.selectString.toList = true ∧ ¬q.timeout < 0
      ∧ ∀ size ∈ q.pageSize, 0 < size := by
    rw [Bool.not_eq_true, Int64.not_lt]
    exact ⟨fun h => ⟨h.select_ne, h.timeout_nonneg, h.pageSize_pos⟩, fun h => ⟨h.1, h.2.1, h.2.2⟩⟩
  rw [hvalid]
  refine guarded_eq_ok_iff.trans (and_congr_right fun _ =>
    guarded_eq_ok_iff.trans (and_congr_right fun _ => ?_))
  cases q.pageSize with
  | none => simp [pure, Except.pure]
  | some size =>
      by_cases hsize : size ≤ 0
      · simp [hsize, throw, throwThe, MonadExceptOf.throw]
      · simp [hsize, pure, Except.pure, Int32.not_le.1 hsize]

theorem QueryPage.check_eq_ok_iff {p : QueryPage} : p.check = .ok () ↔ p.Valid := by
  have hvalid : p.Valid ↔ ¬p.numberOfHits.toInt < p.hits.length
      ∧ checkRows name p.descriptors p.hits = .ok () := by
    rw [checkRows_eq_ok_iff, Int.not_lt]
    exact ⟨fun h => ⟨h.hits_le, h.width⟩, fun h => ⟨h.1, h.2⟩⟩
  rw [hvalid]
  exact guarded_eq_ok_iff

/-! ### All checks at once -/

theorem Record.checked_iff {α : Type} (r : Record α) (a : α) :
    r.layout.Checked a ↔ r.check a = .ok () ∧ r.row.Checked (r.toRow a) :=
  Iff.rfl

theorem Ack.checked_iff {β : Type} {name : String} {body : Layout .value β}
    {goesWithSuccess : β → Bool} {valid : β → Prop} (h : ∀ b, body.Checked b ↔ valid b)
    (ack : Ack β) : (Ack.record name body goesWithSuccess).layout.Checked ack
      ↔ ack.Valid goesWithSuccess valid := by
  have hvalid : ack.Valid goesWithSuccess valid ↔ ack.check name goesWithSuccess = .ok ()
      ∧ ∀ b ∈ ack.body, valid b := by
    rw [check_eq_ok_iff]
    exact ⟨fun h => ⟨h.success_iff, h.body⟩, fun h => ⟨h.1, h.2⟩⟩
  rw [hvalid, Record.checked_iff]
  simp [record, Record.plain, Status.layout, h]

theorem Reply.checked_iff {ρ : Type} {name : String} {result : Layout .value ρ}
    {resultRequired : Bool} {valid : ρ → Prop} (h : ∀ r, result.Checked r ↔ valid r)
    (reply : Reply ρ) : (Reply.record name result resultRequired).layout.Checked reply
      ↔ reply.Valid resultRequired valid := by
  have hvalid : reply.Valid resultRequired valid ↔ reply.check name resultRequired = .ok ()
      ∧ ∀ r ∈ reply.result, valid r := by
    rw [check_eq_ok_iff]
    exact ⟨fun h => ⟨h.result_isSome, h.result⟩, fun h => ⟨h.1, h.2⟩⟩
  rw [hvalid, Record.checked_iff]
  simp [record, Record.plain, Status.layout, h]

theorem Connection.checked_iff (c : Connection) : record.layout.Checked c ↔ c.Valid := by
  rw [← check_eq_ok_iff, Record.checked_iff]
  simp [record, Record.plain]

theorem LoginVerdict.checked_iff (v : LoginVerdict) : layout.Checked v ↔ v.Valid := by
  cases v with
  | accepted c => simpa [layout, toSum, Valid] using Connection.checked_iff c
  | rejected reasons => simp [layout, toSum, Valid]

theorem Event.checked_iff (e : Event) : record.layout.Checked e ↔ e.statements ≠ [] := by
  rw [← check_eq_ok_iff, Record.checked_iff]
  simp [record, Record.plain]

@[simp] theorem FieldDescriptor.checked (f : FieldDescriptor) : record.layout.Checked f := by
  rw [Record.checked_iff]
  simp [record, Record.plain, FieldType.layout]

@[simp] theorem EventSubResult.checked (r : EventSubResult) : record.layout.Checked r := by
  rw [Record.checked_iff]
  simp [record, Record.plain, Status.layout]

theorem EventResult.checked_iff (r : EventResult) : record.layout.Checked r ↔ r.Valid := by
  rw [← check_eq_ok_iff, Record.checked_iff]
  simp [record, Record.plain, Status.layout]

theorem EventDocument.checked_iff (d : EventDocument) : record.layout.Checked d ↔ d.Valid := by
  rw [← check_eq_ok_iff, Record.checked_iff]
  simp [record, Record.plain]

@[simp] theorem EventDocumentResult.checked (r : EventDocumentResult) :
    record.layout.Checked r := by
  rw [Record.checked_iff]
  simp [record, Record.plain, Status.layout]

theorem QueryRequest.checked_iff (q : QueryRequest) : record.layout.Checked q ↔ q.Valid := by
  rw [← check_eq_ok_iff, Record.checked_iff]
  simp [record, Record.plain, Consistency.layout]

@[simp] theorem ServiceNode.checked (n : ServiceNode) : record.layout.Checked n := by
  rw [Record.checked_iff]
  simp [record, Record.plain]

@[simp] theorem QueryContext.checked (c : QueryContext) : record.layout.Checked c := by
  rw [Record.checked_iff]
  simp [record, Record.plain, Consistency.layout]

theorem QueryPage.checked_iff (p : QueryPage) : record.layout.Checked p ↔ p.Valid := by
  rw [← check_eq_ok_iff, Record.checked_iff]
  simp [record, Record.plain]

@[simp] theorem AttachmentIdentity.checked (a : AttachmentIdentity) : record.layout.Checked a := by
  rw [Record.checked_iff]
  simp [record, Record.plain]

@[simp] theorem Attachment.checked (a : Attachment) : record.layout.Checked a := by
  rw [Record.checked_iff]
  simp [record, Record.plain]

theorem AttachmentRequest.checked_iff (r : AttachmentRequest) :
    record.layout.Checked r ↔ Text.allBlank r.request.toList = false := by
  rw [← check_eq_ok_iff, Record.checked_iff]
  simp [record, Record.plain]

theorem AttachmentResponse.checked_iff (r : AttachmentResponse) :
    record.layout.Checked r ↔ r.result.content.isSome = true := by
  rw [← check_eq_ok_iff, Record.checked_iff]
  simp [record, Record.plain]

theorem NextQueryPage.checked_iff (n : NextQueryPage) :
    record.layout.Checked n ↔ 0 ≤ n.timeout := by
  rw [Record.checked_iff]
  refine Iff.trans ?_ check_eq_ok_iff
  simp [record, Record.plain]

/-- All content checks pass exactly on the valid bodies. -/
theorem DataType.checked_iff (type : DataType) (body : type.Body) :
    type.record.layout.Checked body ↔ type.Valid body := by
  have list_iff {α : Type} {item : Layout .value α} {valid : α → Prop}
      (h : ∀ a, item.Checked a ↔ valid a) (as : List α) :
      (Layout.list item).Checked as ↔ ∀ a ∈ as, valid a := forall₂_congr fun a _ => h a
  cases type with
  | connection => exact Connection.checked_iff body
  | connectionAck => exact Ack.checked_iff LoginVerdict.checked_iff body
  | event => exact Event.checked_iff body
  | eventAck => exact Ack.checked_iff (list_iff EventResult.checked_iff) body
  | attachmentRequest => exact AttachmentRequest.checked_iff body
  | attachmentRequestAck =>
      exact Ack.checked_iff (Reply.checked_iff fun a => iff_true_intro a.checked) body
  | attachmentResponse => exact AttachmentResponse.checked_iff body
  | attachmentResponseAck =>
      exact Ack.checked_iff (Reply.checked_iff fun a => iff_true_intro a.checked) body
  | eventDocument => exact EventDocument.checked_iff body
  | eventDocumentAck =>
      have hresults (results : List EventDocumentResult) :
          (Layout.list EventDocumentResult.record.layout).Checked results := fun r _ => r.checked
      exact Ack.checked_iff (fun results => iff_true_intro (hresults results)) body
  | queryRequest => exact QueryRequest.checked_iff body
  | queryRequestAck => exact Ack.checked_iff (Reply.checked_iff QueryPage.checked_iff) body
  | nextQueryPage => exact NextQueryPage.checked_iff body

theorem Payload.checked_iff (p : Payload) : p.Checked ↔ p.Valid := p.type.checked_iff p.body

end DataGateway
