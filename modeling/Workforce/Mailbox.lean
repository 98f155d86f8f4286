/-!
# Mailboxes without room

A worker is reached through a mailbox that stores nothing: a parcel leaves its
sender only when the worker takes it.  If the worker's loop is listening, a
parcel is handed over at once; otherwise it stays an offer of its sender, and
offers are taken in the order in which they were made.  An offer that was not
taken can be withdrawn, and is then never received.

* `Mailbox.send` hands a parcel over or leaves it as an offer;
* `Mailbox.receive` takes the next parcel and names the sender to be told;
* `Mailbox.withdraw` takes an offer back.

Every parcel has a key of its own, so offers can be told apart.
-/

namespace Workforce

/-- A parcel on its way to a worker. -/
structure Parcel (content : Type) where
  key : Nat
  content : content
deriving DecidableEq

/-- A parcel that waits to be taken, and who is told when it is. -/
structure Offer (content listener : Type) where
  parcel : Parcel content
  sender : Option listener
deriving DecidableEq

/-- The parcels on their way to one worker. -/
structure Mailbox (content listener : Type) where
  /-- Parcels handed over to a listening loop that has not looked yet. -/
  tray : List (Parcel content) := []
  /-- Parcels that wait to be taken, oldest first. -/
  offers : List (Offer content listener) := []
  /-- Loops that wait for a parcel, longest waiting first. -/
  listeners : List listener := []
deriving DecidableEq, Inhabited

namespace Mailbox

variable {content listener : Type}

/-- Sends a parcel.  A listening loop gets it at once and has to be woken; with
none it becomes an offer. -/
def send (mailbox : Mailbox content listener) (parcel : Parcel content)
    (sender : Option listener) : Option listener × Mailbox content listener :=
  match mailbox.listeners with
  | woken :: rest =>
    (some woken, { mailbox with tray := mailbox.tray ++ [parcel], listeners := rest })
  | [] => (none, { mailbox with offers := mailbox.offers ++ [⟨parcel, sender⟩] })

/-- Takes the next parcel: one already handed over, else the oldest offer, whose
sender is then told. -/
def receive (mailbox : Mailbox content listener) :
    Option (Parcel content × Option listener) × Mailbox content listener :=
  match mailbox.tray, mailbox.offers with
  | parcel :: rest, _ => (some (parcel, none), { mailbox with tray := rest })
  | [], offer :: rest => (some (offer.parcel, offer.sender), { mailbox with offers := rest })
  | [], [] => (none, mailbox)

/-- Adds a loop that waits for a parcel. -/
def listen [BEq listener] (mailbox : Mailbox content listener) (waiting : listener) :
    Mailbox content listener :=
  if mailbox.listeners.contains waiting then mailbox
  else { mailbox with listeners := mailbox.listeners ++ [waiting] }

/-- Takes back the offer with this key. -/
def withdraw (mailbox : Mailbox content listener) (key : Nat) : Mailbox content listener :=
  { mailbox with offers := mailbox.offers.filter (·.parcel.key != key) }

/-- Whether the parcel with this key still waits to be taken. -/
def isOffered (mailbox : Mailbox content listener) (key : Nat) : Bool :=
  mailbox.offers.any (·.parcel.key == key)

/-- All parcels in the order in which they will be received. -/
def toList (mailbox : Mailbox content listener) : List (Parcel content) :=
  mailbox.tray ++ mailbox.offers.map (·.parcel)

/-- Whether no parcel is on its way. -/
def isEmpty (mailbox : Mailbox content listener) : Bool := mailbox.toList.isEmpty

theorem receive_eq_none_iff (mailbox : Mailbox content listener) :
    mailbox.receive.1 = none ↔ mailbox.toList = [] := by
  obtain ⟨tray, offers, listeners⟩ := mailbox
  cases tray <;> cases offers <;> simp [receive, toList]

/-- What is received is the head of the mailbox, and the rest stays in order. -/
theorem toList_of_receive (mailbox : Mailbox content listener) (parcel : Parcel content)
    (sender : Option listener) (h : mailbox.receive.1 = some (parcel, sender)) :
    mailbox.toList = parcel :: mailbox.receive.2.toList := by
  obtain ⟨tray, offers, listeners⟩ := mailbox
  cases tray <;> cases offers <;> simp_all [receive, toList]

/-- With nothing offered, sending puts the parcel last. -/
theorem toList_send (mailbox : Mailbox content listener) (parcel : Parcel content)
    (sender : Option listener) (h : mailbox.offers = [] ∨ mailbox.listeners = []) :
    (mailbox.send parcel sender).2.toList = mailbox.toList ++ [parcel] := by
  obtain ⟨tray, offers, listeners⟩ := mailbox
  cases listeners <;> simp_all [send, toList]

@[simp]
theorem toList_listen [BEq listener] (mailbox : Mailbox content listener) (waiting : listener) :
    (mailbox.listen waiting).toList = mailbox.toList := by
  unfold listen
  split <;> rfl

end Mailbox

end Workforce
