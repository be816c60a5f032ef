import DataGateway.Proofs.Message.Parts
import DataGateway.Proofs.Session.Sending

/-!
# What travels in slices

A session sends its login and the frames that messages take under its unit, and nothing else. Only
the latter can be slices, and they carry no more than the unit, which is the one that the service
grants with the login. The session takes that as it comes. So slices are as large as the settings
allow if the service grants no more than that, and as soon as it grants more, the next payload that
is large enough is cut against them.
-/

namespace DataGateway

namespace Session

variable {s s' : Session}

theorem Step.config {m : Move} (h : Step m s s') : s'.config = s.config := by
  obtain ⟨_, _, hconfig, _⟩ := h.effect
  exact hconfig

/-! ### The granted unit -/

/-- The service grants the unit with the login that was accepted, going by the journal. -/
def Granted (s : Session) (unit : Nat) : Prop :=
  ∃ ack, .published (.loggedIn ack) ∈ s.journal ∧ granted none ack = some unit

theorem Granted.pos {unit : Nat} (h : s.Granted unit) : 0 < unit := by
  obtain ⟨ack, _, hgranted⟩ := h
  exact granted_pos (by simp) ack unit hgranted

theorem mem_sentFrames_iff {journal : List Note} {frame : Bytes} :
    frame ∈ sentFrames journal ↔ .sent frame ∈ journal := by
  rw [sentFrames, List.mem_filterMap]
  constructor
  · rintro ⟨n, hn, hframe⟩
    cases n <;> cases hframe
    exact hn
  · exact fun hn => ⟨_, hn, rfl⟩

/-- A frame that a step sends is ordinary. -/
theorem Step.sent {m : Move} (h : Step m s s') {frame : Bytes}
    (hframe : frame ∈ sentFrames s'.journal) :
    frame ∈ sentFrames s.journal ∨ s.Ordinary (.sent frame) := by
  rw [mem_sentFrames_iff] at hframe ⊢
  rcases h.unit with ⟨_, notes, hjournal, hnotes⟩ | ⟨ack, _, hjournal, _⟩
  · rw [hjournal] at hframe
    exact (List.mem_append.1 hframe).imp_right (hnotes _)
  · rw [hjournal] at hframe
    exact .inl ((List.mem_append.1 hframe).resolve_right fun hnow =>
      nomatch List.mem_singleton.1 hnow)

end Session

end DataGateway
