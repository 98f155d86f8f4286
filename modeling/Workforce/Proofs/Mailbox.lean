import Mathlib.Tactic.Common
import Workforce.Mailbox
import Workforce.Total

/-!
# What sending and receiving do to a mailbox

A parcel that is sent to a mailbox without listeners becomes the last offer; with a
listener it goes to the tray, and the listener is told.  A parcel that is received was
in front, and if it was an offer its sender is told.
-/

namespace Workforce

namespace Mailbox

variable {content listener : Type} (mailbox : Mailbox content listener)

/-! ## Sending -/

section Send

variable (parcel : Parcel content) (sender : Option listener)

theorem woken_send : (mailbox.send parcel sender).1 = mailbox.listeners.head? := by
  obtain ⟨tray, offers, listeners⟩ := mailbox
  cases listeners <;> rfl

theorem listeners_send : (mailbox.send parcel sender).2.listeners = mailbox.listeners.tail := by
  obtain ⟨tray, offers, listeners⟩ := mailbox
  cases listeners <;> rfl

theorem offers_send :
    (mailbox.send parcel sender).2.offers =
      mailbox.offers ++ if mailbox.listeners = [] then [⟨parcel, sender⟩] else [] := by
  obtain ⟨tray, offers, listeners⟩ := mailbox
  cases listeners <;> simp [send]

theorem tray_send :
    (mailbox.send parcel sender).2.tray =
      mailbox.tray ++ if mailbox.listeners = [] then [] else [parcel] := by
  obtain ⟨tray, offers, listeners⟩ := mailbox
  cases listeners <;> simp [send]

end Send

/-! ## Receiving -/

section Receive

variable {mailbox} {parcel : Parcel content} {sender : Option listener}
  {rest : Mailbox content listener} (h : mailbox.receive = (some (parcel, sender), rest))

include h

theorem toList_receive : mailbox.toList = parcel :: rest.toList := by
  have hhead := toList_of_receive mailbox parcel sender (by rw [h])
  rwa [h] at hhead

theorem listeners_receive : rest.listeners = mailbox.listeners := by
  obtain ⟨tray, offers, listeners⟩ := mailbox
  cases tray <;> cases offers <;> simp_all [receive] <;> obtain ⟨_, rfl⟩ := h <;> rfl

theorem tray_receive : ∀ other ∈ rest.tray, other ∈ mailbox.tray := by
  obtain ⟨tray, offers, listeners⟩ := mailbox
  cases tray with
  | cons first others =>
    obtain ⟨-, rfl⟩ : (some (first, none) : Option (Parcel content × Option listener)) =
        some (parcel, sender) ∧ _ = rest := by simpa [receive] using h
    exact fun other hother => List.mem_cons_of_mem first hother
  | nil =>
    cases offers with
    | nil => simp [receive] at h
    | cons first others =>
      simp only [receive, Prod.mk.injEq] at h
      obtain ⟨-, rfl⟩ := h
      exact fun other hother => hother

/-- An offer that is gone was received, and its sender is told. -/
theorem offers_receive {offer : Offer content listener} (hoffer : offer ∈ mailbox.offers) :
    offer ∈ rest.offers ∨ offer.parcel = parcel ∧ offer.sender = sender := by
  obtain ⟨tray, offers, listeners⟩ := mailbox
  cases tray with
  | cons first others =>
    simp only [receive, Prod.mk.injEq] at h
    obtain ⟨-, rfl⟩ := h
    exact Or.inl hoffer
  | nil =>
    cases offers with
    | nil => simp at hoffer
    | cons first others =>
      simp only [receive, Prod.mk.injEq, Option.some.injEq] at h
      obtain ⟨⟨rfl, rfl⟩, rfl⟩ := h
      rcases List.mem_cons.mp hoffer with rfl | hrest
      · exact Or.inr ⟨rfl, rfl⟩
      · exact Or.inl hrest

theorem mem_offers_of_receive {offer : Offer content listener} (hoffer : offer ∈ rest.offers) :
    offer ∈ mailbox.offers := by
  obtain ⟨tray, offers, listeners⟩ := mailbox
  cases tray with
  | cons first others =>
    simp only [receive, Prod.mk.injEq] at h
    obtain ⟨-, rfl⟩ := h
    exact hoffer
  | nil =>
    cases offers with
    | nil => simp [receive] at h
    | cons first others =>
      simp only [receive, Prod.mk.injEq] at h
      obtain ⟨-, rfl⟩ := h
      exact List.mem_cons_of_mem first hoffer

end Receive

theorem receive_none {rest : Mailbox content listener} (h : mailbox.receive = (none, rest)) :
    mailbox.toList = [] :=
  (receive_eq_none_iff mailbox).mp (by rw [h])

/-! ## Withdrawing -/

section Withdraw

variable (key : Nat)

@[simp] theorem tray_withdraw : (mailbox.withdraw key).tray = mailbox.tray := rfl

@[simp] theorem mem_offers_withdraw (offer : Offer content listener) :
    offer ∈ (mailbox.withdraw key).offers ↔ offer ∈ mailbox.offers ∧ offer.parcel.key ≠ key := by
  simp [withdraw]

theorem mem_toList_of_withdraw {parcel : Parcel content}
    (h : parcel ∈ (mailbox.withdraw key).toList) : parcel ∈ mailbox.toList := by
  simp only [toList, List.mem_append, List.mem_map, mem_offers_withdraw, tray_withdraw] at h ⊢
  rcases h with htray | ⟨offer, ⟨hoffer, -⟩, rfl⟩
  · exact Or.inl htray
  · exact Or.inr ⟨offer, hoffer, rfl⟩

/-- Withdrawing the only parcels there are leaves none, if they are still offers. -/
theorem withdraw_all (h : ∀ parcel ∈ mailbox.toList, parcel.key = key ∧ parcel ∉ mailbox.tray) :
    (mailbox.withdraw key).toList = [] := by
  refine List.eq_nil_iff_forall_not_mem.mpr fun parcel hparcel => ?_
  obtain ⟨-, htray⟩ := h parcel (mem_toList_of_withdraw mailbox key hparcel)
  rcases List.mem_append.mp hparcel with hmem | hmem
  · exact htray hmem
  · obtain ⟨offer, hoffer, rfl⟩ := List.mem_map.mp hmem
    obtain ⟨hold, hkey⟩ := (mem_offers_withdraw mailbox key offer).mp hoffer
    exact hkey (h offer.parcel (List.mem_append_right _ (List.mem_map_of_mem hold))).1

end Withdraw

@[simp] theorem offers_listen [BEq listener] (waiting : listener) :
    (mailbox.listen waiting).offers = mailbox.offers := by
  unfold listen
  split <;> rfl

@[simp] theorem tray_listen [BEq listener] (waiting : listener) :
    (mailbox.listen waiting).tray = mailbox.tray := by
  unfold listen
  split <;> rfl

theorem mem_listeners_listen [BEq listener] [LawfulBEq listener] (waiting : listener)
    {other : listener} (h : other ∈ mailbox.listeners) :
    other ∈ (mailbox.listen waiting).listeners := by
  unfold listen
  split
  · exact h
  · exact List.mem_append_left _ h

/-- A loop that listens is registered. -/
theorem mem_listeners_listen_self [BEq listener] [LawfulBEq listener] (waiting : listener) :
    waiting ∈ (mailbox.listen waiting).listeners := by
  unfold listen
  split
  · next hcontains => simpa using hcontains
  · exact List.mem_append_right _ (List.mem_singleton_self waiting)

theorem isOffered_iff (key : Nat) :
    mailbox.isOffered key = true ↔ ∃ offer ∈ mailbox.offers, offer.parcel.key = key := by
  simp [isOffered]

/-! ## Who can be told something -/

/-- Somebody listens, or has sent an offer that was not taken yet. -/
def Mentions (mailbox : Mailbox content listener) (other : listener) : Prop :=
  other ∈ mailbox.listeners ∨ ∃ offer ∈ mailbox.offers, offer.sender = some other

section Mentions

variable {mailbox} {parcel : Parcel content} {sender : Option listener} {other : listener}

theorem mentions_woken (h : (mailbox.send parcel sender).1 = some other) :
    mailbox.Mentions other := by
  rw [woken_send] at h
  exact Or.inl (List.mem_of_mem_head? h)

/-- A parcel that is sent adds its sender at most. -/
theorem mentions_send (h : (mailbox.send parcel sender).2.Mentions other) :
    mailbox.Mentions other ∨ sender = some other := by
  rcases h with hlistens | ⟨offer, hoffer, hsender⟩
  · rw [listeners_send] at hlistens
    exact Or.inl (Or.inl (List.mem_of_mem_tail hlistens))
  · rw [offers_send] at hoffer
    rcases List.mem_append.mp hoffer with hold | hnew
    · exact Or.inl (Or.inr ⟨offer, hold, hsender⟩)
    · split at hnew
      · rw [List.mem_singleton.mp hnew] at hsender
        exact Or.inr hsender
      · cases hnew

theorem mentions_sender {rest : Mailbox content listener}
    (h : mailbox.receive = (some (parcel, some other), rest)) : mailbox.Mentions other := by
  obtain ⟨tray, offers, listeners⟩ := mailbox
  cases tray with
  | cons first others => simp [receive] at h
  | nil =>
    cases offers with
    | nil => simp [receive] at h
    | cons first others =>
      simp only [receive, Prod.mk.injEq, Option.some.injEq] at h
      exact Or.inr ⟨first, List.mem_cons_self, h.1.2⟩

theorem mentions_receive {rest : Mailbox content listener}
    (h : mailbox.receive = (some (parcel, sender), rest)) (hother : rest.Mentions other) :
    mailbox.Mentions other := by
  rcases hother with hlistens | ⟨offer, hoffer, hsender⟩
  · rw [listeners_receive h] at hlistens
    exact Or.inl hlistens
  · exact Or.inr ⟨offer, mem_offers_of_receive h hoffer, hsender⟩

theorem mentions_listen [BEq listener] {waiting : listener}
    (h : (mailbox.listen waiting).Mentions other) :
    mailbox.Mentions other ∨ waiting = other := by
  rcases h with hlistens | hoffers
  · unfold listen at hlistens
    split at hlistens
    · exact Or.inl (Or.inl hlistens)
    · rcases List.mem_append.mp hlistens with hold | hnew
      · exact Or.inl (Or.inl hold)
      · exact Or.inr (List.mem_singleton.mp hnew).symm
  · rw [offers_listen] at hoffers
    exact Or.inl (Or.inr hoffers)

theorem mentions_withdraw {key : Nat} (h : (mailbox.withdraw key).Mentions other) :
    mailbox.Mentions other := by
  rcases h with hlistens | ⟨offer, hoffer, hsender⟩
  · exact Or.inl hlistens
  · exact Or.inr ⟨offer, ((mem_offers_withdraw mailbox key offer).mp hoffer).1, hsender⟩

end Mentions

/-- Sending adds one parcel, wherever it goes. -/
theorem mem_toList_send {parcel found : Parcel content} {sender : Option listener} :
    found ∈ (mailbox.send parcel sender).2.toList ↔ found ∈ mailbox.toList ∨ found = parcel := by
  obtain ⟨tray, offers, listeners⟩ := mailbox
  cases listeners with
  | nil => simp only [send, toList, List.map_append, List.mem_append, List.map_singleton,
      List.mem_singleton, or_assoc]
  | cons => simp only [send, toList, List.mem_append, List.mem_singleton, or_assoc, or_comm]

/-! ## Weights -/

/-- Sending adds the weight of the parcel, wherever it goes. -/
theorem total_send (weight : Parcel content → Nat) (parcel : Parcel content)
    (sender : Option listener) :
    total weight (mailbox.send parcel sender).2.toList =
      total weight mailbox.toList + weight parcel := by
  obtain ⟨tray, offers, listeners⟩ := mailbox
  cases listeners <;> simp [send, toList] <;> omega

/-- Sending adds the parcel to the parcels of its kind. -/
theorem countP_send (kind : Parcel content → Bool) (parcel : Parcel content)
    (sender : Option listener) :
    (mailbox.send parcel sender).2.toList.countP kind =
      mailbox.toList.countP kind + (kind parcel).toNat := by
  obtain ⟨tray, offers, listeners⟩ := mailbox
  cases hkind : kind parcel with
  | true => cases listeners <;> simp [send, toList, hkind] <;> omega
  | false => cases listeners <;> simp [send, toList, hkind]

/-- Taking back the parcel with this key takes nothing else back. -/
theorem countP_withdraw {kind : Parcel content → Bool} {key : Nat}
    (h : ∀ parcel ∈ mailbox.toList, parcel.key = key → kind parcel = false) :
    (mailbox.withdraw key).toList.countP kind = mailbox.toList.countP kind := by
  simp only [toList, withdraw, List.countP_append, List.countP_map, List.countP_filter]
  refine congrArg _ (List.countP_congr fun offer hoffer => ?_)
  have hparcel : offer.parcel ∈ mailbox.toList :=
    List.mem_append_right _ (List.mem_map_of_mem hoffer)
  simp only [Function.comp_apply, Bool.and_eq_true, bne_iff_ne, ne_eq, and_iff_left_iff_imp]
  intro hof hkey
  rw [h _ hparcel hkey] at hof
  cases hof

end Mailbox

end Workforce
