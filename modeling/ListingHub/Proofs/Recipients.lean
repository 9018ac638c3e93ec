import ListingHub.Recording

/-!
# Whom an event concerns

The lookup of recipients answers with exactly the users an event concerns, each once and in the
order of their keys. The store records a favorite once however often it is added, so sorting the
users of a listing leaves no two of them equal.
-/

namespace ListingHub

/-- An event concerns the agent of a favorited listing, otherwise everybody who favorited it. -/
def Store.Concerns (store : Store) (event : Event) (user : UserId) : Prop :=
  match event with
  | .favorited listing _ => store.agentOf listing = .ok user
  | .priceDrop listing .. | .statusChange listing .. => (listing, user) ∈ store.favorites

namespace UserId

theorem le_trans (a b c : UserId) (hab : a.le b = true) (hbc : b.le c = true) :
    a.le c = true := by
  simp only [UserId.le, decide_eq_true_eq] at hab hbc ⊢
  exact Int64.le_trans hab hbc

theorem le_total (a b : UserId) : (a.le b || b.le a) = true := by
  simpa [UserId.le] using Int64.le_total a.key b.key

/-- Two users that differ in order differ in their keys. -/
theorem key_lt_of_le_of_ne {a b : UserId} (hle : a.le b = true) (hne : a ≠ b) :
    a.key < b.key := by
  have hkey : a.key ≠ b.key := fun h => hne (by cases a; cases b; simp_all)
  exact Int64.lt_of_le_of_ne (by simpa [UserId.le] using hle) hkey

end UserId

namespace Store

theorem mem_interested (store : Store) (listing : ListingId) (user : UserId) :
    user ∈ store.interested listing ↔ (listing, user) ∈ store.favorites := by
  simp only [interested, List.mem_mergeSort, List.mem_map, List.mem_filter, beq_iff_eq]
  constructor
  · rintro ⟨⟨l, u⟩, ⟨hin, rfl⟩, rfl⟩
    exact hin
  · intro hin
    exact ⟨(listing, user), ⟨hin, rfl⟩, rfl⟩

theorem interested_nodup (store : Store) (listing : ListingId) :
    (store.interested listing).Nodup := by
  rw [interested, (List.mergeSort_perm _ _).nodup_iff]
  -- Among the favorites of one listing the user alone tells two entries apart.
  have hkept := store.favorites_nodup.filter fun entry => entry.1 == listing
  refine List.Pairwise.map _ ?_ (List.Pairwise.and_mem.mp hkept)
  rintro ⟨l, u⟩ ⟨l', u'⟩ ⟨hin, hin', hne⟩ heq
  simp only [List.mem_filter, beq_iff_eq] at hin hin' heq
  exact hne (by rw [hin.2, hin'.2, heq])

/-- The users who favorited a listing come in strictly ascending order. -/
theorem interested_ascending (store : Store) (listing : ListingId) :
    (store.interested listing).Pairwise fun a b => a.key < b.key := by
  have hsorted : (store.interested listing).Pairwise fun a b => a.le b = true :=
    List.pairwise_mergeSort UserId.le_trans UserId.le_total _
  refine (hsorted.and (store.interested_nodup listing)).imp ?_
  intro a b hab
  exact UserId.key_lt_of_le_of_ne hab.1 hab.2

/-- Any ascending list of the users who favorited a listing is what is looked up. -/
theorem interested_eq_of_ascending {store : Store} {listing : ListingId} {users : List UserId}
    (hmem : ∀ user, user ∈ users ↔ (listing, user) ∈ store.favorites)
    (hascending : users.Pairwise fun a b => a.key < b.key) :
    store.interested listing = users := by
  have hnodup : users.Nodup := hascending.imp fun hlt heq => by
    rw [heq] at hlt
    exact Int64.lt_irrefl hlt
  have hperm : (store.interested listing).Perm users :=
    (List.perm_ext_iff_of_nodup (store.interested_nodup listing) hnodup).mpr fun user =>
      (store.mem_interested listing user).trans (hmem user).symm
  refine hperm.eq_of_pairwise ?_ (store.interested_ascending listing) hascending
  intro a b _ _ hab hba
  exact absurd (Int64.lt_trans hab hba) Int64.lt_irrefl

end Store

namespace Faults

/-- What a lookup that succeeds says about the lookup in the store behind it. -/
theorem recipients_eq_ok {faults : Faults} {store : Store} {event : Event} {users : List UserId}
    (h : faults.recipients store event = .ok users) :
    (∃ listing address agent, event = .favorited listing address ∧
      store.agentOf listing = .ok agent ∧ users = [agent]) ∨
    ((∀ user, store.Concerns event user ↔ (event.listing, user) ∈ store.favorites) ∧
      users = store.interested event.listing) := by
  cases event with
  | favorited listing address =>
      left
      simp only [recipients, Faults.agentOf] at h
      split at h
      · cases h
      · cases hagent : store.agentOf listing with
        | error failure => rw [hagent] at h; cases h
        | ok agent =>
            rw [hagent] at h
            exact ⟨listing, address, agent, rfl, hagent, (Except.ok.inj h).symm⟩
  | priceDrop listing address text | statusChange listing address text =>
      right
      simp only [recipients, Faults.interested] at h
      split at h
      · cases h
      · exact ⟨fun user => Iff.rfl, (Except.ok.inj h).symm⟩

/-- A lookup that succeeds answers with the users that the event concerns. -/
theorem mem_recipients {faults : Faults} {store : Store} {event : Event} {users : List UserId}
    (h : faults.recipients store event = .ok users) (user : UserId) :
    user ∈ users ↔ store.Concerns event user := by
  rcases recipients_eq_ok h with ⟨listing, address, agent, rfl, hagent, rfl⟩ | ⟨hcon, rfl⟩
  · simp [Store.Concerns, hagent, eq_comm]
  · rw [hcon, Store.mem_interested]

/-- Recipients come in strictly ascending order. -/
theorem recipients_ascending {faults : Faults} {store : Store} {event : Event}
    {users : List UserId} (h : faults.recipients store event = .ok users) :
    users.Pairwise fun a b => a.key < b.key := by
  rcases recipients_eq_ok h with ⟨listing, address, agent, rfl, hagent, rfl⟩ | ⟨-, rfl⟩
  · exact List.pairwise_singleton _ _
  · exact store.interested_ascending _

end Faults

end ListingHub
