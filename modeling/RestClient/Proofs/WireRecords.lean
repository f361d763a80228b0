import RestClient.Proofs.PartialUpdates
import RestClient.Proofs.WholeNumbers

/-!
# Records read back

Users, pages of users, descriptors of pages and reasons come back from the text that is written for
them, whatever their texts hold and however great their numbers are.
-/

namespace RestClient

open Json

namespace PageDescriptor

theorem areSteady : record.fields.AreSteady :=
  .cons "page" none steady_uint32 <|
  .cons "pages" none steady_uint32 <|
  .cons "results" none steady_uint64 .nil

theorem exists_carries (d : PageDescriptor) :
    exists form, Carries record.decoder 1 (encode d) d form := by
  have hcarried : record.fields.Carried 0 (d.page, d.pages, d.results, ()) _ _ :=
    .cons "page" none (carries_uint32 d.page) <|
    .cons "pages" none (carries_uint32 d.pages) <|
    .cons "results" none (carries_uint64 d.results) .nil
  exact ⟨_, Record.carries areSteady (by decide) hcarried⟩

end PageDescriptor

namespace Page

theorem exists_carries (page : Page User) :
    exists form, Carries userRecord.decoder 4 (encode page) page form := by
  have hdata : exists form, Carries decoder 3 (encode page.data) page.data form :=
    exists_carries_list User.tolerates.steady fun user _ => user.exists_carries
  rcases hdata with ⟨data, hdata⟩
  have hcarried : userRecord.fields.Carried 3 (page.data, page.page, page.pages, page.results, ())
      _ _ :=
    .cons "data" none hdata <|
    .cons "page" none ((carries_uint32 page.page).mono (Nat.zero_le 3)) <|
    .cons "pages" none ((carries_uint32 page.pages).mono (Nat.zero_le 3)) <|
    .cons "results" none ((carries_uint64 page.results).mono (Nat.zero_le 3)) .nil
  exact ⟨_, Record.carries areSteady (by decide) hcarried⟩

end Page

namespace Reason

theorem exists_carries (r : Reason) : exists form, Carries record.decoder 1 (encode r) r form := by
  rcases r with ⟨field, reason⟩
  have hreason : (Fields.cons "reason" (decoder : Decoder String) none .nil).Carried 0 (reason, ())
      _ _ :=
    .cons "reason" none (carries_string reason) .nil
  have hcarried : exists members forms, record.fields.Carried 0 (field, reason, ()) members forms ∧
      members = optionalMember "field" field ++ [("reason", encode reason)] := by
    cases field with
    | none => exact ⟨_, _, .absent "field" hreason, rfl⟩
    | some name =>
      rcases exists_carries_optional (some name) with ⟨form, hform⟩
      exact ⟨_, _, .cons "field" (some none) hform hreason, rfl⟩
  rcases hcarried with ⟨_, forms, hcarried, rfl⟩
  exact ⟨_, Record.carries areSteady (by decide) hcarried⟩

end Reason

/-- Whatever is written of the records that the provider sends is decoded as it was. -/
theorem records_come_back :
    (forall user : User, decode (encode user).toBytes = .ok user) ∧
      (forall page : Page User, decode (encode page).toBytes = .ok page) ∧
      (forall d : PageDescriptor, decode (encode d).toBytes = .ok d) ∧
      forall r : Reason, decode (encode r).toBytes = .ok r := by
  refine ⟨User.decode_encode, ?_, ?_, ?_⟩
  · intro page
    rcases page.exists_carries with ⟨form, hform⟩
    exact hform.decodeWith_eq Page.tolerates.steady (by decide)
  · intro d
    rcases d.exists_carries with ⟨form, hform⟩
    exact hform.decodeWith_eq (Record.steady PageDescriptor.areSteady) (by decide)
  · intro r
    rcases r.exists_carries with ⟨form, hform⟩
    exact hform.decodeWith_eq Reason.tolerates.steady (by decide)

end RestClient
