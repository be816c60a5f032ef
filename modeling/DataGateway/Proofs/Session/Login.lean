import DataGateway.Client.Session
import DataGateway.Proofs.Validity
import DataGateway.Proofs.Message.Tree

/-!
# The login that the settings describe

Two checks stand before a login. The settings are checked when they are made, and the login built
from them when it is encoded. Both look at the transmission unit, once as an unsigned setting and
once as the wire's signed field, and they agree on the units that the field can hold (`Config.Fits`):
up to there checked settings yield a login that can be sent, and it says what they say
(`Connection.Says`). From `2 ^ 63` on the field holds a negative number, and no login can be sent of
settings that passed their check.
-/

namespace DataGateway

/-- The signed number that an unsigned one is on the wire. -/
theorem toInt_toInt64 (n : UInt64) :
    n.toInt64.toInt = if n.toNat < 2 ^ 63 then (n.toNat : Int) else n.toNat - 2 ^ 64 := by
  have hcond : n.toInt64.toInt = n.toBitVec.toInt := rfl
  rw [hcond, BitVec.toInt_eq_toNat_cond, UInt64.toNat_toBitVec]
  split <;> split <;> omega

theorem toInt_toInt64_eq_iff {n : UInt64} : n.toInt64.toInt = n.toNat ↔ n.toNat < 2 ^ 63 := by
  rw [toInt_toInt64]
  split <;> omega

theorem toInt64_pos_iff {n : UInt64} (hn : n ≠ 0) : 0 < n.toInt64 ↔ n.toNat < 2 ^ 63 := by
  have hlow : n.toNat ≠ 0 := fun h => hn (UInt64.toNat_inj.1 h)
  have hhigh := n.toNat_lt
  rw [Int64.lt_iff_toInt_lt, Int64.toInt_zero, toInt_toInt64]
  split <;> omega

/-- A login says what the settings say, the transmission unit as a number. -/
structure Connection.Says (login : Connection) (c : Config) : Prop where
  clusterName : login.clusterName = c.clusterName
  serves : login.serveOnTheSameConnection = c.serveOnTheSameConnection
  protocolVersion : login.protocolVersion = DataGateway.protocolVersion
  password : login.password = c.password
  fragmentation : login.fragmentationSupported = c.fragmentationSupported
  unit : login.transmissionUnit.map Int64.toInt =
    if c.fragmentationSupported then some (c.transmissionUnit.toNat : Int) else none

namespace Config

variable {c : Config}

/-- The wire's field can hold the transmission unit, if there is one. -/
def Fits (c : Config) : Prop := c.fragmentationSupported = true → c.transmissionUnit.toNat < 2 ^ 63

/-- The lengths of the texts in a login can be announced. -/
structure Announceable (c : Config) : Prop where
  userName : (Text.octets c.userName).length < 2 ^ 32
  clusterName : (Text.octets c.clusterName).length < 2 ^ 32
  password : ∀ password ∈ c.password, (Text.octets password).length < 2 ^ 32

theorem connection_eq (c : Config) : c.connection = {
    clusterName := c.clusterName
    serveOnTheSameConnection := c.serveOnTheSameConnection
    protocolVersion := protocolVersion
    fragmentationSupported := c.fragmentationSupported
    transmissionUnit := if c.fragmentationSupported then some c.transmissionUnit.toInt64 else none
    reserved := c.password.map ([·]) } := by
  unfold connection
  cases c.fragmentationSupported <;> cases c.password <;> rfl

/-- Checked settings with fragmentation have a unit. -/
theorem unit_ne_zero_of_check (h : c.check = .ok ()) (hsupported : c.fragmentationSupported = true) :
    c.transmissionUnit ≠ 0 := by
  intro hzero
  unfold check at h
  split at h
  · cases h
  split at h
  · cases h
  rw [if_pos ⟨hsupported, hzero⟩] at h
  cases h

theorem connection_says (h : c.Fits) : c.connection.Says c := by
  rw [connection_eq]
  refine ⟨rfl, rfl, rfl, ?_, rfl, ?_⟩
  · unfold Connection.password
    cases c.password <;> rfl
  · cases hsupported : c.fragmentationSupported with
    | false => rfl
    | true => exact congrArg some (toInt_toInt64_eq_iff.2 (h hsupported))

theorem connection_valid_iff (h : c.check = .ok ()) : c.connection.Valid ↔ c.Fits := by
  have hunit : c.connection.Valid ↔
      (c.fragmentationSupported = true → 0 < c.transmissionUnit.toInt64) := by
    rw [connection_eq]
    constructor
    · intro hvalid hsupported
      exact hvalid.unit_pos _ (if_pos hsupported)
    · intro hpos
      refine ⟨by simp, ?_⟩
      intro unit hunit
      obtain ⟨hsupported, rfl⟩ := Option.ite_some_none_eq_some.1 hunit
      exact hpos hsupported
  rw [hunit, Fits]
  exact forall_congr' fun hsupported => toInt64_pos_iff (unit_ne_zero_of_check h hsupported)

end Config

/-- A valid login whose texts can be announced is written. -/
theorem Connection.exists_write {login : Connection} (hvalid : login.Valid)
    (hcluster : (Text.octets login.clusterName).length < 2 ^ 32)
    (hcount : ∀ fields ∈ login.reserved, fields.length < 2 ^ 32)
    (hreserved : ∀ fields ∈ login.reserved, ∀ text ∈ fields, (Text.octets text).length < 2 ^ 32) :
    ∃ bytes, (record.layout.write login).result = .ok bytes := by
  have hcheck : login.check = .ok () := check_eq_ok_iff.2 hvalid
  have htext {s : String} (h : (Text.octets s).length < 2 ^ 32) :
      ∃ bytes, (Layout.text.write s).result = .ok bytes := Draft.exists_measured h _
  have hunit : ∃ bytes, (login.transmissionUnit.elim Draft.nil Layout.long.write).result
      = .ok bytes := by
    cases login.transmissionUnit <;> exact ⟨_, rfl⟩
  have hfields : ∃ bytes, (login.reserved.elim Draft.nil (Layout.list .text).write).result
      = .ok bytes := by
    cases hlist : login.reserved with
    | none => exact ⟨_, rfl⟩
    | some fields =>
        exact Draft.exists_append (Draft.exists_measured (hcount fields hlist) _)
          (Draft.exists_concat fun text h => htext (hreserved fields hlist text h))
  refine Draft.exists_append ⟨[], Draft.check_result_eq_ok.2 ⟨hcheck, rfl⟩⟩ ?_
  refine Draft.exists_append (Draft.exists_measured (by decide) _) ?_
  refine Draft.exists_append (htext hcluster) ?_
  refine Draft.exists_append ⟨_, rfl⟩ (Draft.exists_append ⟨_, rfl⟩ ?_)
  exact Draft.exists_append ⟨_, rfl⟩
    (Draft.exists_append hunit (Draft.exists_append hfields ⟨_, rfl⟩))

namespace Session

variable {s : Session}

/-- The login as bytes, under a message id. -/
def loginFrame (s : Session) (id : String) : Except ProtocolError Bytes :=
  Message.encode (s.header id .connection) ⟨.connection, s.config.connection⟩

theorem check_of_loginFrame {id : String} {frame : Bytes} (h : s.loginFrame id = .ok frame) :
    s.config.connection.check = .ok () := by
  obtain ⟨_, _, _, hpayload⟩ := Message.exists_encode_iff.1 ⟨frame, h⟩
  exact (Layout.record_write_eq_ok hpayload).1

theorem exists_loginFrame {id : String} (hvalid : s.config.connection.Valid)
    (hsized : s.config.Announceable) (hid : id ≠ "")
    (hlength : (Text.octets id).length < 2 ^ 32) : ∃ frame, s.loginFrame id = .ok frame := by
  refine Message.exists_encode_iff.2 ⟨rfl, ⟨hid, hlength, hsized.userName⟩, ?_⟩
  have hreserved : ∀ fields ∈ s.config.connection.reserved,
      ∃ password ∈ s.config.password, fields = [password] := by
    intro fields hfields
    rw [Config.connection_eq] at hfields
    obtain ⟨password, hpassword, rfl⟩ := Option.map_eq_some_iff.1 hfields
    exact ⟨password, hpassword, rfl⟩
  refine Connection.exists_write hvalid ?_ ?_ ?_
  · rw [Config.connection_eq]
    exact hsized.clusterName
  · intro fields hfields
    obtain ⟨_, _, rfl⟩ := hreserved fields hfields
    exact Nat.one_lt_two_pow (by decide)
  · intro fields hfields
    obtain ⟨password, hpassword, rfl⟩ := hreserved fields hfields
    exact List.forall_mem_singleton.2 (hsized.password password hpassword)

theorem decode_loginFrame {id : String} {frame : Bytes} (h : s.loginFrame id = .ok frame) :
    Inbound.decode frame = .ok (.message
      ⟨s.header id .connection, ⟨.connection, s.config.connection⟩, ⟨some frame⟩⟩) := by
  have hstatic : Payload.dynamics ⟨.connection, s.config.connection⟩ = [] :=
    Layout.dynamics_of_isStatic _ rfl _
  obtain ⟨_, _, hspells, hmatch, hshallow⟩ :=
    Message.matches_of_encode h (by rw [hstatic]; exact fun _ hv => absurd hv List.not_mem_nil)
  exact Inbound.decode_of_matches hspells hmatch hshallow

/-- Settings that pass their check yield a login exactly if the wire's field can hold their
transmission unit: then it passes its own check and can be sent under every message id that can be
announced, and what arrives says what the settings say. -/
theorem login_announces (hcheck : s.config.check = .ok ()) (hsized : s.config.Announceable) :
    (s.config.connection.check = .ok () ↔ s.config.Fits) ∧
      (∀ id, (∃ frame, s.loginFrame id = .ok frame) ↔
        s.config.Fits ∧ id ≠ "" ∧ (Text.octets id).length < 2 ^ 32) ∧
      ∀ id frame, s.loginFrame id = .ok frame → ∃ login : Connection,
        Inbound.decode frame =
          .ok (.message ⟨s.header id .connection, ⟨.connection, login⟩, ⟨some frame⟩⟩) ∧
        login.Says s.config := by
  have hvalid := Config.connection_valid_iff hcheck
  have hfits {id : String} {frame : Bytes} (h : s.loginFrame id = .ok frame) : s.config.Fits :=
    hvalid.1 (Connection.check_eq_ok_iff.1 (check_of_loginFrame h))
  refine ⟨Connection.check_eq_ok_iff.trans hvalid, fun id => ⟨?_, ?_⟩, fun id frame h => ?_⟩
  · rintro ⟨frame, h⟩
    obtain ⟨_, hsend, _⟩ := Message.exists_encode_iff.1 ⟨frame, h⟩
    exact ⟨hfits h, hsend.messageId_ne, hsend.messageId_lt⟩
  · rintro ⟨hunit, hid, hlength⟩
    exact exists_loginFrame (hvalid.2 hunit) hsized hid hlength
  · exact ⟨_, decode_loginFrame h, Config.connection_says (hfits h)⟩

/-- The largest unit that the wire's field holds arrives, with a password beside it. -/
theorem login_announces_largest :
    let c : Config := { password := some "secret", clusterName := "c" }
    let s : Session := { config := c.withFragmentation 0x7fffffffffffffff }
    s.config.check = .ok () ∧ s.config.Announceable ∧ ∃ frame, ∃ login : Connection,
      s.loginFrame "m" = .ok frame ∧
      Inbound.decode frame =
        .ok (.message ⟨s.header "m" .connection, ⟨.connection, login⟩, ⟨some frame⟩⟩) ∧
      login.Says s.config ∧ login.password = some "secret" ∧
      login.transmissionUnit = some Int64.maxValue := by
  intro c s
  have hcheck : s.config.check = .ok () := by decide
  have hsized : s.config.Announceable := ⟨by decide, by decide, by decide⟩
  have hfits : s.config.Fits := fun _ => by decide
  obtain ⟨_, hsends, harrives⟩ := login_announces hcheck hsized
  obtain ⟨frame, hframe⟩ := (hsends "m").2 ⟨hfits, by decide, by decide⟩
  obtain ⟨login, hdecode, hsays⟩ := harrives "m" frame hframe
  have hunit : login.transmissionUnit = some Int64.maxValue := by
    obtain ⟨unit, hunit, hvalue⟩ := Option.map_eq_some_iff.1 hsays.unit
    have hmax : unit.toInt = Int64.maxValue.toInt := hvalue
    rw [hunit, Int64.toInt_inj.1 hmax]
  exact ⟨hcheck, hsized, frame, login, hframe, hdecode, hsays, hsays.password, hunit⟩

/-- A unit of `2 ^ 63` passes the check of the settings. The login holds it as a negative number and
fails its own check, so that it is never sent. -/
theorem login_overflows :
    let s : Session := { config := ({} : Config).withFragmentation 0x8000000000000000 }
    s.config.check = .ok () ∧ s.config.Announceable ∧
      s.config.connection.transmissionUnit = some Int64.minValue ∧
      s.config.connection.check =
        .error (.invalid Connection.name .fragmentationWithoutUnit) ∧
      ∀ id frame, s.loginFrame id ≠ .ok frame := by
  intro s
  have hcheck : s.config.connection.check =
      .error (.invalid Connection.name .fragmentationWithoutUnit) := by decide
  refine ⟨by decide, ⟨by decide, by decide, by decide⟩, by decide, hcheck, ?_⟩
  intro id frame h
  exact nomatch hcheck.symm.trans (check_of_loginFrame h)

end Session

end DataGateway
