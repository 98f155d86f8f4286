import Mathlib.Algebra.Group.Nat.Defs
import Mathlib.Data.List.Induction
import Mathlib.Data.List.Nodup
import Mathlib.Tactic.Common
import Workforce.Ticket.Word
import Workforce.Worker

/-!
# A ticket settles once, and only while it is current

A worker has its ticket in one word of 64 bits, from which the generation is shifted out and
back.  As long as generations fit into 62 bits nothing is lost: a call does to the word what
it does to a ticket that counts without bound (`Carrier.perform`, `Worker.perform`), and
returns the same (`TicketCall.Tracks.perform`).

So what calls have come to can be told by the ticket (`TicketCall.Accounted`), one lemma for
each kind of call: as many generations were issued as were asked for, numbered from one on,
and the newest one is pending until some side settles it.

* `TicketCall.settled_once_while_current` draws the consequences for every list of calls in
  which nobody makes up a generation.
-/

namespace Workforce

namespace Ticket

namespace Word

theorem toNat_code_lt (state : Settlement) : (code state).toNat < 4 := by
  cases state <;> decide

/-- A generation of at most 62 bits and a settlement share a word without touching. -/
theorem toNat_pack {generation : UInt64} (h : generation.toNat < 2 ^ 62) (state : Settlement) :
    (pack generation state).toNat = 4 * generation.toNat + (code state).toNat := by
  have hcode : (code state).toNat < 2 ^ 2 := toNat_code_lt state
  have hshift : (generation <<< 2).toNat = generation.toNat <<< 2 := by
    rw [UInt64.toNat_shiftLeft]
    show generation.toNat <<< 2 % 2 ^ 64 = generation.toNat <<< 2
    rw [Nat.shiftLeft_eq, Nat.mod_eq_of_lt (by omega)]
  rw [pack, UInt64.toNat_or, hshift, ← Nat.shiftLeft_add_eq_or_of_lt hcode, Nat.shiftLeft_eq]
  omega

theorem stateOf_eq {word : Word} {state : Settlement} {generation : Nat}
    (h : word.toNat = 4 * generation + (code state).toNat) : word.stateOf = state := by
  have hlow : word &&& 3 = code state := by
    apply UInt64.toNat_inj.mp
    have hcode := toNat_code_lt state
    rw [UInt64.toNat_and]
    show word.toNat &&& 2 ^ 2 - 1 = (code state).toNat
    rw [Nat.and_two_pow_sub_one_eq_mod]
    omega
  rw [stateOf, hlow]
  cases state <;> rfl

theorem toNat_shiftRight_two (word : Word) : (word >>> 2).toNat = word.toNat / 4 := by
  rw [UInt64.toNat_shiftRight]
  show word.toNat >>> 2 = word.toNat / 4
  rw [Nat.shiftRight_eq_div_pow]

end Word

variable {ticket : Ticket}

theorem toNat_toWord (h : ticket.generation < 2 ^ 62) :
    ticket.toWord.toNat = 4 * ticket.generation + (Word.code ticket.state).toNat := by
  have hgeneration : (UInt64.ofNat ticket.generation).toNat = ticket.generation := by
    rw [UInt64.toNat_ofNat', Nat.mod_eq_of_lt (by omega)]
  rw [toWord, Word.toNat_pack (by rw [hgeneration]; exact h), hgeneration]

/-- A ticket of at most 62 bits comes back from its word. -/
theorem ofWord_toWord (h : ticket.generation < 2 ^ 62) : ofWord ticket.toWord = ticket := by
  have hword := toNat_toWord h
  have hcode := Word.toNat_code_lt ticket.state
  have hgeneration : (ticket.toWord >>> 2).toNat = ticket.generation := by
    rw [Word.toNat_shiftRight_two]
    omega
  rw [ofWord, hgeneration, Word.stateOf_eq hword]

/-- The next generation is opened in the word as in the ticket. -/
theorem issue_toWord (h : ticket.generation < 2 ^ 62) :
    ticket.toWord.issue = (UInt64.ofNat ticket.issue.generation, ticket.issue.toWord) := by
  have hnext : ticket.toWord.nextGeneration = UInt64.ofNat ticket.issue.generation := by
    have hword := toNat_toWord h
    have hcode := Word.toNat_code_lt ticket.state
    apply UInt64.toNat_inj.mp
    rw [Word.nextGeneration, UInt64.toNat_add, Word.toNat_shiftRight_two, UInt64.toNat_ofNat',
      generation_issue]
    show (ticket.toWord.toNat / 4 + 1) % 2 ^ 64 = (ticket.generation + 1) % 2 ^ 64
    omega
  rw [Word.issue, hnext]
  rfl

/-- A generation is settled in the word as in the ticket. -/
theorem settle_toWord (h : ticket.generation < 2 ^ 62) {generation : UInt64}
    (hgeneration : generation.toNat < 2 ^ 62) (state : Settlement) :
    ticket.toWord.settle generation state =
      (ticket.settle generation.toNat state).map toWord := by
  have hopen : (ticket.toWord == Word.pack generation .pending) =
      ticket.isOpen generation.toNat := by
    rw [Bool.eq_iff_iff, beq_iff_eq, ← UInt64.toNat_inj, toNat_toWord h,
      Word.toNat_pack hgeneration, isOpen, Bool.and_eq_true, beq_iff_eq, beq_iff_eq]
    cases hstate : ticket.state <;> simp [Word.code] <;> omega
  rw [Word.settle, hopen, settle]
  cases hcurrent : ticket.isOpen generation.toNat with
  | false => rfl
  | true =>
    have hsame : ticket.generation = generation.toNat := by
      simp only [isOpen, Bool.and_eq_true, beq_iff_eq] at hcurrent
      exact hcurrent.1
    simp [toWord, hsame]

end Ticket

/-! ## Calls on a worker that concern its ticket -/

/-- One of the two sides that race for a handoff. -/
inductive Party
  | worker
  | dispatcher
deriving DecidableEq

/-- What a ticket is settled as in favour of a side. -/
def Party.favour : Party → Settlement
  | .worker => .taken
  | .dispatcher => .abandoned

/-- Settles a generation in favour of a side. -/
def Ticket.settleFor (ticket : Ticket) (generation : Nat) : Party → Option Ticket
  | .worker => ticket.accept generation
  | .dispatcher => ticket.abandon generation

theorem Ticket.settleFor_eq (ticket : Ticket) (generation : Nat) (party : Party) :
    ticket.settleFor generation party = ticket.settle generation party.favour := by
  cases party <;> rfl

/-- A call on a worker that concerns its ticket. -/
inductive TicketCall
  /-- Opens the next generation. -/
  | issue
  /-- A side tries to settle a generation. -/
  | settle (generation : UInt64) (party : Party)
  /-- The worker begins a new life. -/
  | revive
deriving DecidableEq

/-- What such a call returns. -/
inductive TicketReply
  | issued (generation : UInt64)
  | settled (done : Bool)
  | revived
deriving DecidableEq

/-- A worker with a ticket of any number of generations. -/
def Worker.perform (worker : Worker) : TicketCall → TicketReply × Worker
  | .issue =>
    (.issued (UInt64.ofNat worker.issueTicket.ticket.generation), worker.issueTicket)
  | .settle generation party =>
    match worker.ticket.settleFor generation.toNat party with
    | some ticket => (.settled true, { worker with ticket })
    | none => (.settled false, worker)
  | .revive => (.revived, worker.revive)

/-- What a worker keeps of its handoffs: the ticket in one word, and the mark of a worker that
was chosen for exit. -/
structure Carrier where
  word : Ticket.Word := 0
  deleted : Bool := false
deriving DecidableEq

/-- A worker with its ticket in a word. -/
def Carrier.perform (carrier : Carrier) : TicketCall → TicketReply × Carrier
  | .issue =>
    let (generation, word) := carrier.word.issue
    (.issued generation, { carrier with word })
  | .settle generation party =>
    match carrier.word.settle generation party.favour with
    | some word => (.settled true, { carrier with word })
    | none => (.settled false, carrier)
  | .revive => (.revived, { carrier with deleted := false })

/-- A side that fails to settle a generation changes nothing. -/
theorem Carrier.perform_of_fails (carrier : Carrier) {generation : UInt64} {party : Party}
    (hfails : (carrier.perform (.settle generation party)).1 = .settled false) :
    (carrier.perform (.settle generation party)).2 = carrier := by
  simp only [Carrier.perform] at hfails ⊢
  cases hsettle : carrier.word.settle generation party.favour with
  | none => rfl
  | some word => simp [hsettle] at hfails

namespace TicketCall

section History

variable {State : Type} (answer : State → TicketCall → TicketReply × State)

/-- Makes calls one after the other. -/
def follow (first : State) (calls : List TicketCall) : State :=
  calls.foldl (fun state call => (answer state call).2) first

/-- The calls with what they return. -/
def history : State → List TicketCall → List (TicketCall × TicketReply)
  | _, [] => []
  | state, call :: rest => (call, (answer state call).1) :: history (answer state call).2 rest

theorem follow_concat (first : State) (calls : List TicketCall) (last : TicketCall) :
    follow answer first (calls ++ [last]) = (answer (follow answer first calls) last).2 :=
  List.foldl_append

theorem history_concat (first : State) (calls : List TicketCall) (last : TicketCall) :
    history answer first (calls ++ [last]) =
      history answer first calls ++ [(last, (answer (follow answer first calls) last).1)] := by
  induction calls generalizing first with
  | nil => rfl
  | cons call rest ih => exact congrArg (_ :: ·) (ih _)

end History

/-- The generation that a call tries to settle. -/
def generation? : TicketCall → Option UInt64
  | .settle generation _ => some generation
  | .issue | .revive => none

/-- The generation that was issued by a call. -/
def issued? : TicketCall × TicketReply → Option UInt64
  | (_, .issued generation) => some generation
  | _ => none

/-- The generation that was settled by a call, and the side that settled it. -/
def settled? : TicketCall × TicketReply → Option (UInt64 × Party)
  | (.settle generation party, .settled true) => some (generation, party)
  | _ => none

/-- The generations that were issued by these calls, in this order. -/
def issued (calls : List TicketCall) : List UInt64 :=
  (history Carrier.perform {} calls).filterMap issued?

/-- The generations that were settled by these calls, and the sides that settled them. -/
def settled (calls : List TicketCall) : List (UInt64 × Party) :=
  (history Carrier.perform {} calls).filterMap settled?

/-- What a call adds to the generations that were issued. -/
theorem issued_concat (calls : List TicketCall) (last : TicketCall) :
    issued (calls ++ [last]) = issued calls ++
      (issued? (last, ((follow Carrier.perform {} calls).perform last).1)).toList := by
  rw [issued, history_concat, List.filterMap_append, List.filterMap_cons, List.filterMap_nil]
  cases issued? (last, ((follow Carrier.perform {} calls).perform last).1) <;> rfl

/-- What a call adds to the generations that were settled. -/
theorem settled_concat (calls : List TicketCall) (last : TicketCall) :
    settled (calls ++ [last]) = settled calls ++
      (settled? (last, ((follow Carrier.perform {} calls).perform last).1)).toList := by
  rw [settled, history_concat, List.filterMap_append, List.filterMap_cons, List.filterMap_nil]
  cases settled? (last, ((follow Carrier.perform {} calls).perform last).1) <;> rfl

/-- Whoever tries to settle a generation has it from an earlier call that issued it. -/
def Known (calls : List TicketCall) : Prop :=
  ∀ place < calls.length, ∀ generation ∈ calls[place]?.bind generation?,
    generation ∈ issued (calls.take place)

-- By name, so that nobody looks for a generation among all words.
instance (calls : List TicketCall) : Decidable (Known calls) :=
  @Nat.decidableBallLT _ _ fun _ _ => Option.decidableForallMem _

theorem Known.front {calls : List TicketCall} {last : TicketCall} (h : Known (calls ++ [last])) :
    Known calls := by
  intro place hplace generation hgeneration
  have hlater := h place (by simp; omega) generation
  rw [List.getElem?_append_left hplace,
    List.take_append_of_le_length (Nat.le_of_lt hplace)] at hlater
  exact hlater hgeneration

theorem Known.last {calls : List TicketCall} {generation : UInt64} {party : Party}
    (h : Known (calls ++ [.settle generation party])) : generation ∈ issued calls := by
  simpa [generation?] using h calls.length (by simp) generation

/-- A word holds the ticket of a worker. -/
structure Tracks (carrier : Carrier) (worker : Worker) : Prop where
  word : carrier.word = worker.ticket.toWord
  deleted : carrier.deleted = worker.deleted

/-- As long as a generation fits into the word, a call does the same to the word as to the
ticket. -/
theorem Tracks.perform {carrier : Carrier} {worker : Worker} (h : Tracks carrier worker)
    (hsmall : worker.ticket.generation < 2 ^ 62) (call : TicketCall)
    (hcall : ∀ generation ∈ call.generation?, generation.toNat < 2 ^ 62) :
    (carrier.perform call).1 = (worker.perform call).1 ∧
      Tracks (carrier.perform call).2 (worker.perform call).2 := by
  obtain ⟨hword, hdeleted⟩ := h
  cases call with
  | issue =>
    have hissue := Ticket.issue_toWord hsmall
    rw [← hword] at hissue
    simp only [Carrier.perform, hissue]
    exact ⟨rfl, rfl, hdeleted⟩
  | settle generation party =>
    have hsettle := Ticket.settle_toWord hsmall (hcall generation rfl) party.favour
    rw [← hword, ← Ticket.settleFor_eq] at hsettle
    simp only [Carrier.perform, Worker.perform, hsettle]
    cases worker.ticket.settleFor generation.toNat party with
    | none => exact ⟨rfl, hword, hdeleted⟩
    | some ticket => exact ⟨rfl, rfl, hdeleted⟩
  | revive => exact ⟨rfl, hword, rfl⟩

/-! ## What the calls amount to -/

/-- Where a ticket of so many generations stands after these calls. -/
structure Accounted (id home : Nat) (calls : List TicketCall) : Prop where
  tracks : Tracks (follow Carrier.perform {} calls) (follow Worker.perform { id, home } calls)
  replies : history Carrier.perform {} calls = history Worker.perform { id, home } calls
  generation : (follow Worker.perform ({ id, home } : Worker) calls).ticket.generation =
    calls.count .issue
  numbered : (issued calls).map UInt64.toNat = List.range' 1 (calls.count .issue)
  pending : (follow Worker.perform ({ id, home } : Worker) calls).ticket.state = .pending ↔
    ∀ generation party, generation.toNat = calls.count .issue → (generation, party) ∉ settled calls
  once : ((settled calls).map Prod.fst).Nodup
  earlier : ∀ entry ∈ settled calls, entry.1 ∈ issued calls

namespace Accounted

variable {id home : Nat} {calls : List TicketCall}

theorem nil (id home : Nat) : Accounted id home [] where
  tracks := ⟨show (0 : Ticket.Word) = ({} : Ticket).toWord by decide, rfl⟩
  replies := rfl
  generation := rfl
  numbered := rfl
  pending := iff_of_true rfl fun _ _ _ => List.not_mem_nil
  once := List.nodup_nil
  earlier := nofun

/-- A generation that was issued is one of the first so many numbers. -/
theorem bounds (h : Accounted id home calls) {generation : UInt64}
    (hissued : generation ∈ issued calls) :
    1 ≤ generation.toNat ∧ generation.toNat ≤ calls.count .issue := by
  have hmem : generation.toNat ∈ (issued calls).map UInt64.toNat := List.mem_map_of_mem hissued
  rw [h.numbered, List.mem_range'_1] at hmem
  omega

/-- What a call returns, and where it leaves the word and the ticket. -/
theorem perform (h : Accounted id home calls) (hsmall : calls.count .issue < 2 ^ 62)
    (last : TicketCall) (hlast : ∀ generation ∈ last.generation?, generation ∈ issued calls) :
    ((follow Carrier.perform {} calls).perform last).1 =
        ((follow Worker.perform { id, home } calls).perform last).1 ∧
      Tracks (follow Carrier.perform {} (calls ++ [last]))
        (follow Worker.perform { id, home } (calls ++ [last])) := by
  rw [follow_concat, follow_concat]
  refine h.tracks.perform (h.generation ▸ hsmall) last fun generation hgeneration => ?_
  have hbounds := h.bounds (hlast generation hgeneration)
  omega

theorem replies_concat (h : Accounted id home calls) {last : TicketCall}
    (hsame : ((follow Carrier.perform {} calls).perform last).1 =
      ((follow Worker.perform { id, home } calls).perform last).1) :
    history Carrier.perform {} (calls ++ [last]) =
      history Worker.perform { id, home } (calls ++ [last]) := by
  rw [history_concat, history_concat, h.replies, hsame]

/-- One more generation is issued. -/
theorem issue (h : Accounted id home calls) (hfew : calls.count .issue < 2 ^ 62 - 1) :
    Accounted id home (calls ++ [.issue]) := by
  obtain ⟨hsame, htracks⟩ := h.perform (by omega) .issue nofun
  have hnext : (follow Worker.perform ({ id, home } : Worker) calls).issueTicket.ticket.generation =
      calls.count .issue + 1 := by
    rw [← h.generation]
    rfl
  have hissued : issued (calls ++ [.issue]) =
      issued calls ++ [UInt64.ofNat (calls.count .issue + 1)] := by
    rw [issued_concat, hsame, ← hnext]
    rfl
  have hsettled : settled (calls ++ [.issue]) = settled calls := by
    rw [settled_concat]
    exact List.append_nil _
  have hcount : (calls ++ [TicketCall.issue]).count .issue = calls.count .issue + 1 := by simp
  refine ⟨htracks, h.replies_concat hsame, ?_, ?_, ?_, ?_, ?_⟩
  · rw [follow_concat, hcount]
    exact hnext
  · rw [hissued, List.map_append, h.numbered, hcount, List.range'_concat]
    simp only [List.map_cons, List.map_nil, UInt64.toNat_ofNat']
    rw [Nat.mod_eq_of_lt (by omega), Nat.one_mul, Nat.add_comm]
  · rw [follow_concat, hcount, hsettled]
    refine iff_of_true rfl fun generation party hnumber hmem => ?_
    have hbound : generation.toNat ≤ calls.count .issue := (h.bounds (h.earlier _ hmem)).2
    omega
  · rw [hsettled]
    exact h.once
  · intro entry hentry
    rw [hsettled] at hentry
    rw [hissued]
    exact List.mem_append_left _ (h.earlier entry hentry)

/-- A call that neither issues nor settles a generation, or fails to, changes nothing. -/
theorem idle (h : Accounted id home calls) {last : TicketCall} (hlast : last ≠ .issue)
    (htracks : Tracks (follow Carrier.perform {} (calls ++ [last]))
      (follow Worker.perform { id, home } (calls ++ [last])))
    (hsame : ((follow Carrier.perform {} calls).perform last).1 =
      ((follow Worker.perform { id, home } calls).perform last).1)
    (hticket : (follow Worker.perform { id, home } (calls ++ [last])).ticket =
      (follow Worker.perform { id, home } calls).ticket)
    (hissues : issued? (last, ((follow Carrier.perform {} calls).perform last).1) = none)
    (hsettles : settled? (last, ((follow Carrier.perform {} calls).perform last).1) = none) :
    Accounted id home (calls ++ [last]) := by
  have hissued : issued (calls ++ [last]) = issued calls := by
    rw [issued_concat, hissues]
    exact List.append_nil _
  have hsettled : settled (calls ++ [last]) = settled calls := by
    rw [settled_concat, hsettles]
    exact List.append_nil _
  have hcount : (calls ++ [last]).count .issue = calls.count .issue := by
    rw [List.count_append, List.count_singleton]
    simp [hlast]
  refine ⟨htracks, h.replies_concat hsame, ?_, ?_, ?_, ?_, ?_⟩
  · rw [hticket, hcount, h.generation]
  · rw [hissued, hcount, h.numbered]
  · rw [hticket, hcount, hsettled, h.pending]
  · rw [hsettled]
    exact h.once
  · rw [hissued, hsettled]
    exact h.earlier

/-- A side settles the current generation, or fails to settle one. -/
theorem settle (h : Accounted id home calls) (hsmall : calls.count .issue < 2 ^ 62)
    {generation : UInt64} (hknown : generation ∈ issued calls) (party : Party) :
    Accounted id home (calls ++ [.settle generation party]) := by
  obtain ⟨hsame, htracks⟩ := h.perform hsmall (.settle generation party)
    fun _ hmem => Option.some.inj hmem ▸ hknown
  cases hsettle : (follow Worker.perform { id, home } calls).ticket.settleFor generation.toNat
      party with
  | none =>
    have hreply : (follow Worker.perform { id, home } calls).perform (.settle generation party) =
        (.settled false, follow Worker.perform { id, home } calls) := by
      simp only [Worker.perform, hsettle]
    refine h.idle nofun htracks hsame ?_ ?_ ?_
    · rw [follow_concat, hreply]
    · rw [hsame, hreply]
      rfl
    · rw [hsame, hreply]
      rfl
  | some ticket =>
    have hreply : (follow Worker.perform { id, home } calls).perform (.settle generation party) =
        (.settled true, { follow Worker.perform { id, home } calls with ticket }) := by
      simp only [Worker.perform, hsettle]
    rw [Ticket.settleFor_eq, Ticket.settle_eq_some_iff, h.generation] at hsettle
    obtain ⟨hcurrent, hpending, hticket⟩ := hsettle
    have hissued : issued (calls ++ [.settle generation party]) = issued calls := by
      rw [issued_concat, hsame, hreply]
      exact List.append_nil _
    have hsettled : settled (calls ++ [.settle generation party]) =
        settled calls ++ [(generation, party)] := by
      rw [settled_concat, hsame, hreply]
      rfl
    have hcount : (calls ++ [TicketCall.settle generation party]).count .issue =
        calls.count .issue := by
      simp
    have hlater : (follow Worker.perform { id, home }
        (calls ++ [.settle generation party])).ticket = ticket := by
      rw [follow_concat, hreply]
    refine ⟨htracks, h.replies_concat hsame, ?_, ?_, ?_, ?_, ?_⟩
    · rw [hlater, hcount, hticket]
    · rw [hissued, hcount, h.numbered]
    · rw [hlater, hcount, hsettled]
      refine iff_of_false ?_ fun hopen => ?_
      · rw [hticket]
        cases party <;> exact nofun
      · exact hopen generation party hcurrent.symm (List.mem_append_right _ List.mem_cons_self)
    · -- the generation was still pending, so nobody has settled it before
      rw [hsettled, List.map_append]
      refine List.Nodup.append h.once (List.nodup_singleton _) fun other hother hlast => ?_
      obtain rfl : other = generation := List.mem_singleton.mp hlast
      obtain ⟨⟨_, side⟩, hmem, rfl⟩ := List.mem_map.mp hother
      exact h.pending.mp hpending _ side hcurrent.symm hmem
    · intro entry hentry
      rw [hsettled, List.mem_append, List.mem_singleton] at hentry
      rw [hissued]
      rcases hentry with hearlier | rfl
      · exact h.earlier entry hearlier
      · exact hknown

theorem revive (h : Accounted id home calls) (hsmall : calls.count .issue < 2 ^ 62) :
    Accounted id home (calls ++ [.revive]) := by
  obtain ⟨hsame, htracks⟩ := h.perform hsmall .revive nofun
  refine h.idle nofun htracks hsame ?_ rfl rfl
  rw [follow_concat]
  rfl

/-- Calls that settle what was issued are accounted for. -/
theorem of_known (id home : Nat) (hfew : calls.count .issue < 2 ^ 62 - 1) (hknown : Known calls) :
    Accounted id home calls := by
  induction calls using List.reverseRecOn with
  | nil => exact nil id home
  | append_singleton calls last ih =>
    rw [List.count_append] at hfew
    have hcalls := ih (by omega) hknown.front
    cases last with
    | issue => exact hcalls.issue (by omega)
    | settle generation party => exact hcalls.settle (by omega) hknown.last party
    | revive => exact hcalls.revive (by omega)

/-- The generation that was issued last is the one with the greatest number. -/
theorem getLast?_issued (h : Accounted id home calls) {generation : UInt64}
    (hissued : generation ∈ issued calls) :
    (issued calls).getLast? = some generation ↔ calls.count .issue = generation.toNat := by
  have hbounds := h.bounds hissued
  have hlast : ((issued calls).map UInt64.toNat).getLast? = some (calls.count .issue) := by
    rw [h.numbered, List.getLast?_range', if_neg (by omega)]
    exact congrArg some (by omega)
  rw [List.getLast?_map, Option.map_eq_some_iff] at hlast
  obtain ⟨last, hlast, hnumber⟩ := hlast
  rw [hlast, ← hnumber, UInt64.toNat_inj, Option.some.injEq]

/-- A side settles a generation if this is the newest one and nobody has settled it yet. -/
theorem settles_iff (h : Accounted id home calls) (hsmall : calls.count .issue < 2 ^ 62)
    {generation : UInt64} (hissued : generation ∈ issued calls) (party : Party) :
    ((follow Carrier.perform {} calls).perform (.settle generation party)).1 = .settled true ↔
      (issued calls).getLast? = some generation ∧
        ∀ side, (generation, side) ∉ settled calls := by
  obtain ⟨hsame, -⟩ := h.perform hsmall (.settle generation party)
    fun _ hmem => Option.some.inj hmem ▸ hissued
  have hnewest := h.getLast?_issued hissued
  have hopen : ((follow Worker.perform { id, home } calls).perform
      (.settle generation party)).1 = .settled true ↔
        (follow Worker.perform { id, home } calls).ticket.isOpen generation.toNat = true := by
    simp only [Worker.perform, Ticket.settleFor_eq, Ticket.settle]
    cases (follow Worker.perform { id, home } calls).ticket.isOpen generation.toNat <;> simp
  rw [hsame, hopen, Ticket.isOpen, Bool.and_eq_true, beq_iff_eq, beq_iff_eq, h.generation,
    h.pending, hnewest]
  constructor
  · rintro ⟨hnumber, hopen⟩
    exact ⟨hnumber, fun side => hopen generation side hnumber.symm⟩
  · rintro ⟨hnumber, hnobody⟩
    refine ⟨hnumber, fun other side hother => ?_⟩
    obtain rfl : other = generation := UInt64.toNat_inj.mp (hother.trans hnumber)
    exact hnobody side

end Accounted

/-- **A ticket settles once, and only while it is current.**  However many generations fewer than
`2 ^ 62 - 1` are issued, and whatever earlier generations either side tries to settle in between,
in earlier lives of the worker or in this one:

* the generations are numbered from one on, so each is greater than all before it;
* the word holds the very ticket that a worker would have which counts without bound, and every
  call returns what it would return there;
* a side settles a generation exactly if it is the newest one and nobody has settled it yet;
* so no generation is settled twice, by one side or by both;
* a side that fails to settle a generation leaves the ticket as it is. -/
theorem settled_once_while_current (id home : Nat) (calls : List TicketCall)
    (hfew : calls.count .issue < 2 ^ 62 - 1) (hknown : Known calls) :
    let carrier := follow Carrier.perform {} calls
    let worker := follow Worker.perform { id, home } calls
    ((issued calls).map UInt64.toNat = List.range' 1 (calls.count .issue) ∧
        (issued calls).Pairwise (· < ·)) ∧
      (Ticket.ofWord carrier.word = worker.ticket ∧ worker.ticket.toWord = carrier.word ∧
        history Carrier.perform {} calls = history Worker.perform { id, home } calls) ∧
      (∀ generation ∈ issued calls, ∀ party,
        (carrier.perform (.settle generation party)).1 = .settled true ↔
          (issued calls).getLast? = some generation ∧
            ∀ side, (generation, side) ∉ settled calls) ∧
      ((settled calls).map Prod.fst).Nodup ∧
      ∀ generation party, (carrier.perform (.settle generation party)).1 = .settled false →
        (carrier.perform (.settle generation party)).2 = carrier := by
  intro carrier worker
  have h : Accounted id home calls := .of_known id home hfew hknown
  refine ⟨⟨h.numbered, ?_⟩, ⟨?_, h.tracks.word.symm, h.replies⟩,
    fun generation hissued party => h.settles_iff (by omega) hissued party, h.once,
    fun _ _ => carrier.perform_of_fails⟩
  · have hsorted : ((issued calls).map UInt64.toNat).Pairwise (· < ·) := by
      rw [h.numbered]
      exact List.pairwise_lt_range'
    rw [List.pairwise_map] at hsorted
    exact hsorted.imp UInt64.lt_iff_toNat_lt.mpr
  · show Ticket.ofWord (follow Carrier.perform {} calls).word = _
    rw [h.tracks.word]
    exact Ticket.ofWord_toWord (by rw [h.generation]; omega)

/-- A worker that is handed three tasks: the first handoff is abandoned, the second one is
accepted in the next life of the worker, and the third one is still open. -/
def threeHandoffs : List TicketCall :=
  [.issue, .settle 1 .dispatcher, .settle 1 .worker, .revive, .issue, .settle 1 .worker,
    .settle 2 .worker, .settle 2 .dispatcher, .issue]

/-- Only the third handoff can be settled. -/
theorem third_handoff_open :
    threeHandoffs.count .issue < 2 ^ 62 - 1 ∧ Known threeHandoffs ∧
      let carrier := follow Carrier.perform {} threeHandoffs
      (∀ party, (carrier.perform (.settle 3 party)).1 = .settled true) ∧
        (∀ party, (carrier.perform (.settle 2 party)).1 ≠ .settled true) ∧
        settled threeHandoffs = [(1, .dispatcher), (2, .worker)] ∧
        carrier.word = Ticket.toWord { generation := 3, state := .pending } := by
  have hfew : threeHandoffs.count .issue < 2 ^ 62 - 1 := by decide
  have hknown : Known threeHandoffs := by decide
  obtain ⟨-, -, hsettles, -, -⟩ := settled_once_while_current 0 0 threeHandoffs hfew hknown
  have hsettled : settled threeHandoffs = [(1, .dispatcher), (2, .worker)] := by decide
  have hlast : (issued threeHandoffs).getLast? = some 3 := by decide
  refine ⟨hfew, hknown, fun party => ?_, fun party hsome => ?_, hsettled, by decide⟩
  · refine (hsettles 3 (by decide) party).mpr ⟨hlast, fun side => ?_⟩
    rw [hsettled]
    cases side <;> decide
  · exact absurd ((hsettles 2 (by decide) party).mp hsome).1 (by decide)

end TicketCall

end Workforce
