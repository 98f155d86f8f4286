import Workforce.Proofs.Mailbox
import Workforce.Proofs.Pool.Census

/-!
# A worker and its loop

A worker is reached through a mailbox without room, and a ticket tells whether the
task that was sent to it last can still be accepted.  `Worker.Fits` says how the two
agree with the phase of the worker's loop:

* a loop that waits for work is matched by one parcel in the mailbox or by one thing
  that keeps the worker, its custody; any other loop is matched by neither;
* a task in the mailbox can still be accepted, and while the ticket is pending its
  task is in the mailbox or with the loop;
* a loop is registered with an empty mailbox only.

The lemmas of this module follow a worker through everything that can happen to it.
A worker without a live loop counts as one whose loop is over.
-/

namespace Workforce

namespace Worker

/-- The ticket and the mailbox of a worker agree with the phase of its loop, the
`number`-th of the pool, while `custody` things keep the worker. -/
structure Fits (worker : Worker) (number : Nat) (phase : Phase) (custody : Nat) : Prop where
  owned : (phase.isReceptive worker.ticket).toNat = worker.mailbox.toList.length + custody
  /-- A task in the mailbox can be accepted. -/
  acceptable : ∀ key generation task,
    ⟨key, .work generation task⟩ ∈ worker.mailbox.toList → worker.ticket.isOpen generation = true
  /-- No loop is ahead of the ticket. -/
  past : ∀ key generation task, phase = .deciding key generation task →
    generation ≤ worker.ticket.generation
  /-- The task of a pending ticket is in the mailbox or with the loop. -/
  pending : worker.ticket.state = .pending → 0 < worker.ticket.generation → ∃ key task,
    ⟨key, .work worker.ticket.generation task⟩ ∈ worker.mailbox.toList ∨
      phase = .deciding key worker.ticket.generation task
  /-- Only an idle loop listens, and only to an empty mailbox. -/
  listening : worker.mailbox.listeners = [] ∨
    worker.mailbox.toList = [] ∧ worker.mailbox.listeners = [.loop number] ∧ phase = .receiving

namespace Fits

variable {worker : Worker} {number : Nat} {phase : Phase} {custody : Nat}

/-- Whether a worker fits is a matter of its ticket and its mailbox. -/
theorem congr {other : Worker} (h : worker.Fits number phase custody)
    (hticket : other.ticket = worker.ticket) (hmailbox : other.mailbox = worker.mailbox) :
    other.Fits number phase custody := by
  obtain ⟨howned, hacceptable, hpast, hpending, hlistening⟩ := h
  rw [← hticket] at howned hacceptable hpast hpending
  rw [← hmailbox] at howned hacceptable hpending hlistening
  exact ⟨howned, hacceptable, hpast, hpending, hlistening⟩

/-- One loop at most waits for work, so a kept worker is kept once and has no mail. -/
theorem unkept (h : worker.Fits number phase (custody + 1)) :
    worker.mailbox.toList = [] ∧ custody = 0 ∧ phase.isReceptive worker.ticket = true := by
  have howned := h.owned
  have hle := Bool.toNat_le (phase.isReceptive worker.ticket)
  refine ⟨List.length_eq_zero_iff.mp (by omega), by omega, ?_⟩
  cases hreceptive : phase.isReceptive worker.ticket with
  | true => rfl
  | false =>
    rw [hreceptive] at howned
    simp at howned

/-- A worker that somebody keeps has no pending ticket. -/
theorem settled (h : worker.Fits number phase (custody + 1)) :
    worker.ticket.state = .pending → worker.ticket.generation = 0 := by
  intro hstate
  obtain ⟨hempty, -, hreceptive⟩ := h.unkept
  by_contra hgeneration
  obtain ⟨key, task, hmail | hphase⟩ := h.pending hstate (Nat.pos_of_ne_zero hgeneration)
  · rw [hempty] at hmail
    exact absurd hmail List.not_mem_nil
  · rw [hphase] at hreceptive
    simp [Phase.isReceptive, Ticket.isOpen, hstate] at hreceptive

/-- A worker without a live loop has an empty mailbox that nobody listens to, and
nobody keeps it. -/
theorem vacant (h : worker.Fits number .ended custody) :
    worker.mailbox.toList = [] ∧ custody = 0 ∧ worker.mailbox.listeners = [] := by
  have howned := h.owned
  simp only [Phase.isReceptive, Bool.toNat_false] at howned
  refine ⟨List.length_eq_zero_iff.mp (by omega), by omega, ?_⟩
  rcases h.listening with hnone | ⟨-, -, hphase⟩
  · exact hnone
  · cases hphase

/-- Only a loop that looks for parcels is listened for. -/
theorem unheard (h : worker.Fits number phase custody) (hphase : phase ≠ .receiving) :
    worker.mailbox.listeners = [] := by
  rcases h.listening with hnone | ⟨-, -, hreceiving⟩
  · exact hnone
  · exact absurd hreceiving hphase

/-- A loop that waits for work still does so under the next generation. -/
theorem receptive_issue (h : worker.Fits number phase (custody + 1)) :
    phase.isReceptive worker.ticket.issue = true := by
  have hreceptive := h.unkept.2.2
  cases phase with
  | deciding key generation task =>
    have hpast := h.past key generation task rfl
    have hne : ¬worker.ticket.generation + 1 = generation := by omega
    simp [Phase.isReceptive, hne]
  | starting => rfl
  | receiving => rfl
  | _ => cases hreceptive

/-! ## The loop goes on -/

/-- A worker gets a loop, and whoever asked for it keeps the worker. -/
theorem hire {other : Nat} (h : worker.Fits other .ended 0) : worker.Fits number .starting 1 where
  owned := by
    rw [h.vacant.1]
    rfl
  acceptable := h.acceptable
  past _ _ _ hphase := by cases hphase
  pending hstate hgeneration := by
    obtain ⟨key, task, hmail | hphase⟩ := h.pending hstate hgeneration
    · exact ⟨key, task, Or.inl hmail⟩
    · cases hphase
  listening := Or.inl h.vacant.2.2

/-- A loop that neither listens nor holds a task that it can accept goes into another
phase, with what its custody has to become. -/
theorem rephase {next : Phase} {further : Nat} (h : worker.Fits number phase custody)
    (hlistening : phase ≠ .receiving) (hdeciding : phase.isDeciding worker.ticket = false)
    (hnext : ∀ key generation task, next ≠ .deciding key generation task)
    (howned : (next.isReceptive worker.ticket).toNat + custody =
      (phase.isReceptive worker.ticket).toNat + further) :
    worker.Fits number next further where
  owned := by
    have hbefore := h.owned
    omega
  acceptable := h.acceptable
  past key generation task hphase := absurd hphase (hnext key generation task)
  pending hstate hgeneration := by
    obtain ⟨key, task, hmail | hphase⟩ := h.pending hstate hgeneration
    · exact ⟨key, task, Or.inl hmail⟩
    · rw [hphase] at hdeciding
      simp [Phase.isDeciding, Ticket.isOpen, hstate] at hdeciding
  listening := Or.inl (h.unheard hlistening)

/-- A loop that finds nothing listens. -/
theorem listen (h : worker.Fits number .receiving custody) (hempty : worker.mailbox.toList = []) :
    ({ worker with mailbox := worker.mailbox.listen (.loop number) } : Worker).Fits number
      .receiving custody where
  owned := by
    rw [Mailbox.toList_listen]
    exact h.owned
  acceptable key generation task hmail := by
    rw [Mailbox.toList_listen] at hmail
    exact h.acceptable key generation task hmail
  past _ _ _ hphase := by cases hphase
  pending hstate hgeneration := by
    simp only [Mailbox.toList_listen]
    exact h.pending hstate hgeneration
  listening := by
    refine Or.inr ⟨by rwa [Mailbox.toList_listen], ?_, rfl⟩
    rcases h.listening with hnone | ⟨-, hone, -⟩
    · simp [Mailbox.listen, hnone]
    · simp [Mailbox.listen, hone]

section Receive

variable {parcel : Parcel Load} {sender : Option FiberId} {rest : Mailbox Load FiberId}
  (h : worker.Fits number .receiving custody)
  (hreceive : worker.mailbox.receive = (some (parcel, sender), rest))

include h hreceive

/-- The parcel that a loop takes is the only one there is for it. -/
theorem only : worker.mailbox.toList = [parcel] ∧ rest.toList = [] ∧ custody = 0 := by
  -- A receptive loop is owed one thing only, and this is the parcel that was taken.
  have hlist := Mailbox.toList_receive hreceive
  have howned := h.owned
  simp only [Phase.isReceptive, Bool.toNat_true, hlist, List.length_cons] at howned
  have hrest : rest.toList = [] := List.length_eq_zero_iff.mp (by omega)
  exact ⟨by rw [hlist, hrest], hrest, by omega⟩

theorem unheard_receive : rest.listeners = [] := by
  rw [Mailbox.listeners_receive hreceive]
  rcases h.listening with hnone | ⟨hempty, -, -⟩
  · exact hnone
  · rw [(h.only hreceive).1] at hempty
    cases hempty

/-- A loop that is asked to exit ends. -/
theorem receive_exit (hexit : parcel.content = .exit) :
    ({ worker with mailbox := rest } : Worker).Fits number .ended custody where
  owned := by
    obtain ⟨-, hrest, hcustody⟩ := h.only hreceive
    rw [hrest, hcustody]
    rfl
  acceptable key generation task hmail := by
    rw [(h.only hreceive).2.1] at hmail
    cases hmail
  past _ _ _ hphase := by cases hphase
  pending hstate hgeneration := by
    obtain ⟨key, task, hmail | hphase⟩ := h.pending hstate hgeneration
    · rw [(h.only hreceive).1, List.mem_singleton] at hmail
      rw [← hmail] at hexit
      cases hexit
    · cases hphase
  listening := Or.inl (h.unheard_receive hreceive)

/-- A loop that takes a task can accept it. -/
theorem isOpen_receive {generation : Nat} {task : Task}
    (hwork : parcel.content = .work generation task) : worker.ticket.isOpen generation = true := by
  refine h.acceptable parcel.key generation task ?_
  rw [(h.only hreceive).1, ← hwork]
  exact List.mem_singleton_self parcel

/-- A loop that takes a task has to decide on it. -/
theorem receive_work {generation : Nat} {task : Task}
    (hwork : parcel.content = .work generation task) :
    ({ worker with mailbox := rest } : Worker).Fits number (.deciding parcel.key generation task)
      custody where
  owned := by
    obtain ⟨-, hrest, hcustody⟩ := h.only hreceive
    rw [hrest, hcustody]
    simp [Phase.isReceptive, h.isOpen_receive hreceive hwork]
  acceptable key generation task hmail := by
    rw [(h.only hreceive).2.1] at hmail
    cases hmail
  past key found other hphase := by
    cases hphase
    have hopen := h.isOpen_receive hreceive hwork
    simp only [Ticket.isOpen, Bool.and_eq_true, beq_iff_eq] at hopen
    exact Nat.le_of_eq hopen.1.symm
  pending hstate hgeneration := by
    have hopen := h.isOpen_receive hreceive hwork
    simp only [Ticket.isOpen, Bool.and_eq_true, beq_iff_eq] at hopen
    exact ⟨parcel.key, task, Or.inr (by rw [hopen.1])⟩
  listening := Or.inl (h.unheard_receive hreceive)

end Receive

/-- A loop that accepts its task runs it, or is over when the handler is. -/
theorem accept {key generation : Nat} {task : Task} {ticket : Ticket} {next : Phase}
    (h : worker.Fits number (.deciding key generation task) custody)
    (haccept : worker.ticket.accept generation = some ticket)
    (hnext : ∀ key generation task, next ≠ .deciding key generation task)
    (hbusy : ∀ ticket, next.isReceptive ticket = false) :
    ({ worker with ticket } : Worker).Fits number next custody := by
  obtain ⟨hgeneration, hstate, rfl⟩ := (Ticket.settle_eq_some_iff ..).mp haccept
  -- The ticket is open, so the loop is not receptive and the custody is used up.
  have howned := h.owned
  simp only [Phase.isReceptive, Ticket.isOpen, hgeneration, hstate, beq_self_eq_true,
    Bool.and_self, Bool.not_true, Bool.toNat_false] at howned
  have hempty : worker.mailbox.toList = [] := List.length_eq_zero_iff.mp (by omega)
  refine ⟨?_, ?_, ?_, ?_, Or.inl (h.unheard (by simp))⟩
  · rw [hbusy]
    exact howned
  · intro key generation task hmail
    simp [hempty] at hmail
  · exact fun key generation task hphase => absurd hphase (hnext key generation task)
  · exact fun hpending => by cases hpending

/-! ## Parcels are sent -/

section Send

variable (h : worker.Fits number phase (custody + 1)) (parcel : Parcel Load)
  (sender : Option FiberId)

include h

theorem toList_send : (worker.mailbox.send parcel sender).2.toList = [parcel] := by
  have hempty := h.unkept.1
  have hoffers : worker.mailbox.offers = [] := by
    simp only [Mailbox.toList, List.append_eq_nil_iff, List.map_eq_nil_iff] at hempty
    exact hempty.2
  rw [Mailbox.toList_send _ _ _ (Or.inl hoffers), hempty, List.nil_append]

theorem unheard_send : (worker.mailbox.send parcel sender).2.listeners = [] := by
  rw [Mailbox.listeners_send]
  rcases h.listening with hnone | ⟨-, hone, -⟩
  · rw [hnone, List.tail_nil]
  · rw [hone, List.tail_cons]

/-- The request to exit takes the place of what kept the worker. -/
theorem send_exit (hexit : parcel.content = .exit) :
    ({ worker with mailbox := (worker.mailbox.send parcel sender).2 } : Worker).Fits number phase
      custody where
  owned := by
    obtain ⟨-, hcustody, hreceptive⟩ := h.unkept
    rw [h.toList_send, hreceptive, hcustody]
    rfl
  acceptable key generation task hmail := by
    rw [h.toList_send, List.mem_singleton] at hmail
    rw [← hmail] at hexit
    cases hexit
  past := h.past
  pending hstate hgeneration := absurd (h.settled hstate) (Nat.ne_of_gt hgeneration)
  listening := Or.inl (h.unheard_send parcel sender)

/-- A task under a new generation takes the place of what kept the worker. -/
theorem send_work {task : Task}
    (hwork : parcel.content = .work (worker.ticket.generation + 1) task) :
    ({ worker with
        ticket := worker.ticket.issue
        mailbox := (worker.mailbox.send parcel sender).2 } : Worker).Fits number phase custody where
  owned := by
    rw [h.toList_send, h.receptive_issue, h.unkept.2.1]
    rfl
  acceptable key generation other hmail := by
    rw [h.toList_send, List.mem_singleton] at hmail
    rw [← hmail] at hwork
    cases hwork
    simp
  past key generation task hphase := Nat.le_succ_of_le (h.past key generation task hphase)
  pending _ _ := by
    refine ⟨parcel.key, task, Or.inl ?_⟩
    rw [h.toList_send, List.mem_singleton, Ticket.generation_issue, ← hwork]
  listening := Or.inl (h.unheard_send parcel sender)

end Send

/-! ## A dispatch is given up -/

/-- The task of an open ticket is all that the worker has: it is in the mailbox while the
loop waits for it, or with the loop while the mailbox is empty. -/
theorem underway {generation : Nat} (h : worker.Fits number phase custody)
    (hissued : 0 < generation) (hopen : worker.ticket.isOpen generation = true) :
    custody = 0 ∧ ∃ key task,
      worker.mailbox.toList = [⟨key, .work generation task⟩] ∧
          phase.isReceptive worker.ticket = true ∨
        worker.mailbox.toList = [] ∧ phase = .deciding key generation task := by
  simp only [Ticket.isOpen, Bool.and_eq_true, beq_iff_eq] at hopen
  obtain ⟨rfl, hstate⟩ := hopen
  have howned := h.owned
  obtain ⟨key, task, hmail | hphase⟩ := h.pending hstate hissued
  · have hpos := List.length_pos_of_mem hmail
    have hle := Bool.toNat_le (phase.isReceptive worker.ticket)
    obtain ⟨parcel, hlist⟩ := List.length_eq_one_iff.mp
      (show worker.mailbox.toList.length = 1 by omega)
    rw [hlist, List.mem_singleton] at hmail
    refine ⟨by omega, key, task, Or.inl ⟨by rw [hlist, hmail], ?_⟩⟩
    rw [← Bool.toNat_eq_one]
    omega
  · subst hphase
    simp only [Phase.isReceptive, Ticket.isOpen, hstate, beq_self_eq_true, Bool.and_self,
      Bool.not_true, Bool.toNat_false] at howned
    exact ⟨by omega, key, task, Or.inr ⟨List.length_eq_zero_iff.mp (by omega), rfl⟩⟩

/-- A dispatch that is given up before its task was accepted leaves the worker to
whoever gave it up. -/
theorem abandon {key generation : Nat} {ticket : Ticket} (h : worker.Fits number phase custody)
    (hissued : 0 < generation)
    (habandon : worker.ticket.abandon generation = some ticket)
    (hown : ∀ found task, ⟨found, .work generation task⟩ ∈ worker.mailbox.toList →
      found = key ∧ ⟨found, .work generation task⟩ ∉ worker.mailbox.tray) :
    ({ worker with ticket, mailbox := worker.mailbox.withdraw key } : Worker).Fits number phase
      (custody + 1) := by
  obtain ⟨hgeneration, hstate, rfl⟩ := (Ticket.settle_eq_some_iff ..).mp habandon
  have hopen : worker.ticket.isOpen generation = true := by
    simp [Ticket.isOpen, hgeneration, hstate]
  obtain ⟨rfl, found, task, hcases⟩ := h.underway hissued hopen
  -- Either the parcel is still in the mailbox and is withdrawn, or the loop has it already,
  -- and the ticket that is settled makes the loop receptive again.
  have hparts : phase.isUnoccupied worker.ticket = true ∧
      ∀ parcel ∈ worker.mailbox.toList, parcel.key = key ∧ parcel ∉ worker.mailbox.tray := by
    rcases hcases with ⟨hlist, hreceptive⟩ | ⟨hempty, hphase⟩
    · refine ⟨by simp [Phase.isUnoccupied, hreceptive], fun parcel hparcel => ?_⟩
      have hmail := hparcel
      rw [hlist, List.mem_singleton] at hmail
      rw [hmail] at hparcel ⊢
      exact hown found task hparcel
    · refine ⟨by simp [Phase.isUnoccupied, Phase.isDeciding, hphase, hopen],
        fun parcel hparcel => ?_⟩
      rw [hempty] at hparcel
      cases hparcel
  obtain ⟨hunoccupied, hall⟩ := hparts
  have hempty := Mailbox.withdraw_all _ _ hall
  have hreceptive := Phase.isReceptive_abandoned hunoccupied
  refine ⟨?_, ?_, h.past, ?_, ?_⟩
  · rw [hempty, hreceptive]
    rfl
  · intro other generation task hmail
    simp [hempty] at hmail
  · exact fun hpending => by cases hpending
  · rcases h.listening with hnone | ⟨-, hone, hphase⟩
    · exact Or.inl hnone
    · exact Or.inr ⟨hempty, hone, hphase⟩

/-- A dispatch that is given up too late finds nothing to withdraw. -/
theorem withdraw_late {key generation : Nat} (h : worker.Fits number phase custody)
    (hlate : worker.ticket.isOpen generation = false)
    (hown : ∀ parcel ∈ worker.mailbox.toList, parcel.key = key →
      ∃ task, parcel.content = .work generation task) :
    worker.mailbox.withdraw key = worker.mailbox := by
  -- All mail is acceptable, so nothing with a closed ticket can be among the offers.
  have hoffers : worker.mailbox.offers.filter (·.parcel.key != key) = worker.mailbox.offers := by
    rw [List.filter_eq_self]
    intro offer hoffer
    by_contra hkey
    have hmail : offer.parcel ∈ worker.mailbox.toList :=
      List.mem_append_right _ (List.mem_map_of_mem hoffer)
    obtain ⟨task, hwork⟩ := hown offer.parcel hmail (by simpa using hkey)
    have hopen := h.acceptable offer.parcel.key generation task (by rw [← hwork]; exact hmail)
    rw [hlate] at hopen
    cases hopen
  rw [Mailbox.withdraw, hoffers]

end Fits

end Worker

end Workforce
