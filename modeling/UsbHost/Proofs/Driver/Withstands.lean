import UsbHost.Driver.Operation
import UsbHost.Proofs.Host.Buffers
import UsbHost.Proofs.Host.Polling
import UsbHost.Proofs.Host.Running

/-!
# What withstands the driver

What holds of the world before and after each of the things that operations are
made of, holds before and after operations.  So a property that transfers and
delays maintain is maintained by requests; if it is also left alone by common
accesses and by the halting of channels, it is maintained by the bringing up of
the core; and if it is left alone by the two ways of writing the port, by every
operation.

A property that every single access leaves alone withstands transfers as well.
One that only the programming of a channel breaks is still left alone by what is
done around that.

## Main results

* `Tends.quiesce`, `Tends.await` — what comes before and after the programming
  of a channel.
* `TendsPort.resetBus` — a reset of the bus.
* `Carries.control` — control transfers, from their packets.
* `Bears.request`, `Bears.readReport` — requests and polls.
* `Conducts.always_init` — bringing up the core, up to its one access to the
  port.
* `ConductsAll.perform`, `ConductsAll.performAll` — every operation, and any
  number of them.
* `Withstands.transfer` — a packet, access by access.
-/

namespace UsbHost

open Run

variable {σ : Type}

/-! ## Registers -/

namespace Register

/-- Registers whose reading has to do neither with the port nor with the
contents of the receive queue. -/
def Common : Register → Prop
  | .port | .rxStatusPop | .fifo _ => False
  | _ => True

/-- Registers whose writing has to do neither with the port nor with packets. -/
def Inner : Register → Prop
  | .port | .fifo _ => False
  | .channel _ r => r = .interruptMask
  | _ => True

end Register

/-! ## Around the programming of a channel -/

/-- `P` is left alone by the passing of time and by what is done with channel
`c` apart from programming it and taking what it has received. -/
structure Host.Tends (host : Host σ) (c : Channel)
    (P : World Register σ → Prop) : Prop extends host.core.Timeless P where
  read : ∀ r, r.Common → Preserves P (host.core.read r)
  frame : ∀ v, Preserves P (host.core.write .interruptStatus v)
  split : Preserves P (host.core.store (.channel c .splitControl) 0)
  clear : Preserves P (host.core.storeOnes (.channel c .interrupts))
  halt : ∀ chars, Preserves P (host.core.store (.channel c .characteristics)
    (ChannelCharacteristics.disable.set true chars))

namespace Host.Tends

variable {host : Host σ} {c : Channel} {P : World Register σ → Prop}
  (h : host.Tends c P)

include h

theorem load (r : Register) (hr : r.Common) :
    Preserves P (host.core.load r) :=
  (h.read r hr).bind fun _ => .pure _

/-- Reading a register for what it says. -/
theorem inspect {α : Type} {r : Register} {f : r.Content → α}
    (hr : r.Common) : Preserves P (do return f (← host.core.load r)) :=
  (h.load r hr).bind fun _ => .pure _

theorem quiesce : Preserves P (host.quiesce c) := by
  refine (h.load _ (by trivial)).bind fun chars => ?_
  refine .ite (fun _ => ?_) fun _ => h.clear
  refine (h.halt chars).bind fun _ => ?_
  exact (h.waitUntil _ (h.inspect (by trivial))).bind fun _ => h.clear

theorem awaitFrame : Preserves P host.awaitFrame := by
  refine (h.frame _).bind fun _ => ?_
  refine (h.waitUntil _ ?_).bind fun _ => h.frame _
  exact h.inspect (by trivial)

theorem awaitTxSpace (words : Nat) : Preserves P (host.awaitTxSpace words) :=
  h.waitUntil _ (h.inspect (by trivial))

theorem await {x : Exchange} (hx : x.channel = c)
    (hdrain : ∀ room, Preserves P (host.drain c room)) (requested : Nat)
    (buffer : List Byte) (room : Nat) :
    Preserves P (host.await x requested buffer room) := by
  subst hx
  refine (h.deadlineAfter _).bind fun deadline => .loop (fun _ => ?_) ()
  refine (h.load _ (by trivial)).bind fun interrupts => ?_
  split
  · split
    · refine (hdrain _).bind fun received => ?_
      exact h.clear.bind fun _ => .pure _
    · exact h.clear.bind fun _ => .pure _
  · exact h.clear.bind fun _ => .pure _
  · refine (h.expired deadline).bind fun late => .ite (fun _ => ?_) fun _ => ?_
    · exact h.quiesce.bind fun _ => .pure _
    · exact .pure _

end Host.Tends

/-! ## Around the port -/

/-- `P` is left alone by the passing of time, by readings of the port and by
both ways of writing it. -/
structure Host.TendsPort (host : Host σ) (P : World Register σ → Prop) :
    Prop extends host.core.Timeless P where
  readPort : Preserves P (host.core.read .port)
  updatePort : ∀ change, Preserves P (host.core.updatePort change)
  acknowledgePort : ∀ changes, Preserves P (host.core.acknowledgePort changes)

namespace Host.TendsPort

variable {host : Host σ} {P : World Register σ → Prop} (h : host.TendsPort P)

include h

theorem loadPort : Preserves P (host.core.load .port) :=
  h.readPort.bind fun _ => .pure _

theorem isConnected : Preserves P host.isConnected :=
  h.loadPort.bind fun _ => .pure _

theorem awaitDevice (timeout : Duration) :
    Preserves P (host.awaitDevice timeout) := by
  refine (h.deadlineAfter _).bind fun deadline => .loop (fun _ => ?_) ()
  refine h.isConnected.bind fun found => .ite (fun _ => .pure _) fun _ => ?_
  refine (h.expired _).bind fun late => .ite (fun _ => .pure _) fun _ => ?_
  exact (h.timeLeft _).bind fun left => (h.delay _).bind fun _ => .pure _

theorem awaitEnabled : Preserves P host.awaitEnabled := by
  have hrest : ∀ (port : HostPort) deadline, Preserves P (do
      if HostPort.enabled.get port then
        return .inr (some (.ofCode (HostPort.speed.get port).toNat))
      if ← host.core.expired deadline then
        return .inr none
      host.core.delay host.settings.portPollInterval
      return .inl () : Run Register σ (Unit ⊕ Option Speed)) := by
    intro port deadline
    refine .ite (fun _ => .pure _) fun _ => ?_
    refine (h.expired _).bind fun late => .ite (fun _ => .pure _) fun _ => ?_
    exact (h.delay _).bind fun _ => .pure _
  refine (h.deadlineAfter _).bind fun deadline => .loop (fun _ => ?_) ()
  refine h.loadPort.bind fun port => .ite (fun _ => ?_) fun _ => hrest _ _
  exact (h.acknowledgePort _).bind fun _ => hrest _ _

theorem resetBus : HostM.Preserves P host.resetBus := by
  refine .bind (.lift h.isConnected) fun connected => ?_
  cases connected with
  | false => exact .throw _
  | true =>
    refine .bind (.lift (h.acknowledgePort _)) fun _ => ?_
    refine .bind (.lift (h.delay _)) fun _ => ?_
    refine .bind (.lift (h.updatePort _)) fun _ => ?_
    refine .bind (.lift (h.delay _)) fun _ => ?_
    refine .bind (.lift (h.updatePort _)) fun _ => ?_
    refine .bind (.lift (h.delay _)) fun _ => ?_
    refine .bind (.lift h.awaitEnabled) fun speed => ?_
    cases speed with
    | none => exact .throw _
    | some speed => exact .modify _

end Host.TendsPort

/-- Draining only reads. -/
theorem Host.preserves_drain {host : Host σ} {P : World Register σ → Prop}
    (h : ∀ r, r ≠ .port → Preserves P (host.core.read r)) (c : Channel)
    (room : Nat) : Preserves P (host.drain c room) := by
  have hload : ∀ r : Register, r ≠ .port → Preserves P (host.core.load r) :=
    fun r hr => (h r hr).bind fun _ => .pure _
  have htake : ∀ keep words stored,
      Preserves P (host.takePacket c keep words stored) := by
    intro keep words
    induction words with
    | zero => exact fun stored => .pure stored
    | succ words ih =>
      exact fun stored => (hload _ (by nofun)).bind fun _ => ih _
  refine .loop (fun stored => ?_) []
  refine (hload _ (by nofun)).bind fun status => .ite (fun _ => .pure _) ?_
  refine fun _ => (hload _ (by nofun)).bind fun entry => ?_
  refine .ite (fun _ => .pure _) fun _ => ?_
  exact (htake _ _ _).bind fun _ => .pure _

/-! ## Control transfers -/

/-- `P` is maintained by the packets of control transfers to the device as `s`
has it, and by the pauses between them; where one of them stops, `H` holds. -/
structure Host.Carries (host : Host σ) (s : Link)
    (P H : World Register σ → Prop) : Prop where
  stop : ∀ w, P w → H w
  pause : Maintains P H (host.core.delay host.settings.nakRetryDelay)
  packet : ∀ direction pid buffer, Maintains P H
    (host.transfer s (.control direction pid) buffer buffer.length)

namespace Host.Carries

variable {host : Host σ} {s : Link} {P H : World Register σ → Prop}
  (h : host.Carries s P H)

include h

theorem persist {stage : Stage}
    {exchange : List Byte → Run Register σ (Moved TransferError)}
    (hexchange : ∀ buffer, Maintains P H (exchange buffer)) (attempts : Nat)
    (buffer : List Byte) :
    Maintains P H (host.persist stage exchange attempts buffer) := by
  induction attempts generalizing buffer with
  | zero => exact .pure _
  | succ left ih =>
    refine (hexchange buffer).bind fun moved => ?_
    split
    · exact .pure _
    · refine .ite (fun _ => ?_) fun _ => ih _
      exact h.pause.bind fun _ => ih _
    · exact .pure _

theorem controlPacket (stage : Stage) (direction : Direction) (pid : Pid)
    (buffer : List Byte) :
    Maintains P H (host.controlPacket s stage direction pid buffer) :=
  h.persist (h.packet direction pid) _ buffer

theorem dataStage (direction : Direction) (total : Nat) (buffer : List Byte) :
    Maintains P H (host.dataStage s direction total buffer) := by
  refine .loop h.stop (fun stage => .ite (fun _ => ?_) fun _ => .pure _) _
  refine (Maintains.slice h.stop _ _ _).bind fun chunk => ?_
  refine (h.controlPacket _ _ _ _).bind fun packet => ?_
  dsimp only
  split
  · exact .pure _
  · exact .ite (fun _ => .pure _) fun _ => .pure _

theorem statusStage (direction : Direction) (count : Nat)
    (buffer : List Byte) :
    Maintains P H (host.statusStage s direction count buffer) := by
  refine (h.controlPacket _ _ _ _).bind fun packet => ?_
  split
  · exact .pure _
  · exact .pure _

theorem control (setup : SetupPacket) (buffer : List Byte) :
    Maintains P H (host.control s setup buffer) := by
  refine (h.controlPacket _ _ _ _).bind fun sent => ?_
  split
  · exact .pure _
  · refine .ite (fun _ => ?_) fun _ => h.statusStage _ _ _
    refine (h.dataStage _ _ _).bind fun moved => ?_
    split
    · exact h.statusStage _ _ _
    · exact .pure _

end Host.Carries

/-! ## Transfers and requests -/

/-- `P` is maintained by transfers and delays; where one of them stops, `H`
holds. -/
structure Host.Bears (host : Host σ) (P H : World Register σ → Prop) : Prop
    where
  stop : ∀ w, P w → H w
  delay : ∀ d, Maintains P H (host.core.delay d)
  transfer : ∀ s x buffer length,
    Maintains P H (host.transfer s x buffer length)

namespace Host.Bears

variable {host : Host σ} {P H : World Register σ → Prop} (h : host.Bears P H)

include h

theorem carries (s : Link) : host.Carries s P H where
  stop := h.stop
  pause := h.delay _
  packet direction pid buffer :=
    h.transfer s (.control direction pid) buffer buffer.length

theorem request (setup : SetupPacket) (buffer : List Byte) :
    HostM.Maintains P H (host.request setup buffer) := by
  refine .bind .get fun s => ?_
  refine .bind (.lift ((h.carries s).control setup buffer)) ?_
  intro moved
  cases moved.result with
  | ok count => exact .pure _
  | error e => exact .throw e

theorem setIdle : HostM.Maintains P H host.setIdle := by
  refine .bind .get fun s => ?_
  cases s.hid with
  | none => exact .throw _
  | some hid => exact .bind (h.request _ _) fun _ => .pure _

theorem setInterface (interface setting : Byte) :
    HostM.Maintains P H (host.setInterface interface setting) := by
  refine .bind .get fun s => ?_
  split
  · exact .bind (h.request _ _) fun _ => .pure _
  · exact .throw _

theorem readReport (report : List Byte) (s : Link) :
    Maintains P H ((host.readReport report).run s) := by
  rw [Host.run_readReport]
  cases s.pollable? with
  | none => exact .pure _
  | some hid =>
    refine (h.transfer s _ _ _).bind fun moved => ?_
    cases moved.result with
    | ok count => exact .pure _
    | error e => exact .pure _

theorem poll (pad : Gamepad) (s : Link) :
    Maintains P H ((pad.poll host).run s) := by
  rw [Gamepad.run_poll]
  refine (h.readReport _ s).bind fun r => ?_
  dsimp only
  cases r.1.result with
  | ok count => exact (Maintains.slice h.stop _ _ _).bind fun _ => .pure _
  | error e => exact .ite (fun _ => .pure _) fun _ => .pure _

/-- Enumerating ends as its bus reset does, or before that, with or without a
result. -/
theorem always_enumerate {P' Q : World Register σ → Prop}
    (h' : host.Bears P' H) (hend : ∀ w, P w → Q w) (hend' : ∀ w, P' w → Q w)
    (hreset : ∀ s w, P w →
      (host.resetBus.run.run s).Always w (fun _ => P') H) (s : Link)
    {w : World Register σ} (hw : P w) :
    (host.enumerate.run.run s).Always w (fun _ => Q) H := by
  refine (HostM.Maintains.modify _).before hend hw fun _ s w hw => ?_
  refine (h.request _ _).before hend hw fun head s w hw => ?_
  refine (HostM.Maintains.modify _).before hend hw fun _ s w hw => ?_
  refine HostM.always_bind (hreset s w hw) (fun _ s w hw => ?_)
    fun _ _ w hw => hend' w hw
  refine HostM.Maintains.ends (P := P') ?_ hend' s hw
  refine .bind (.modify _) fun _ => .bind (.lift (h'.delay _)) fun _ => ?_
  refine .bind (h'.request _ _) fun _ => .bind (.modify _) fun _ => ?_
  refine .bind (.lift (h'.delay _)) fun _ => .bind (h'.request _ _) fun _ => ?_
  refine .bind (h'.request _ _) fun read => ?_
  refine .bind (.lift (.slice h'.stop _ _ _)) fun configuration => ?_
  cases HidEndpoint.find? configuration with
  | none => exact .throw _
  | some hid =>
    refine .bind (.modify _) fun _ => .bind (h'.request _ _) fun _ => ?_
    exact .modify _

end Host.Bears

/-! ## Bringing up the core -/

/-- `P` is maintained by transfers and by halting channels, and left alone by
the passing of time, by reading common registers and by writing inner ones. -/
structure Host.Conducts (host : Host σ) (P H : World Register σ → Prop) : Prop
    extends host.Bears P H, host.core.Timeless P where
  read : ∀ r, r.Common → Preserves P (host.core.read r)
  write : ∀ r v, r.Inner → Preserves P (host.core.write r v)
  quiesce : ∀ c, Maintains P H (host.quiesce c)

namespace Host.Conducts

variable {host : Host σ} {P H : World Register σ → Prop}
  (h : host.Conducts P H)

include h

theorem load (r : Register) (hr : r.Common) :
    Preserves P (host.core.load r) :=
  (h.read r hr).bind fun _ => .pure _

/-- Reading a register for what it says. -/
theorem inspect {α : Type} {r : Register} {f : r.Content → α}
    (hr : r.Common) : Preserves P (do return f (← host.core.load r)) :=
  (h.load r hr).bind fun _ => .pure _

theorem store (r : Register) (content : r.Content) (hr : r.Inner) :
    Preserves P (host.core.store r content) :=
  h.write r _ hr

theorem pause (d : Duration) : Preserves P (host.core.delay d) :=
  h.toTimeless.delay d

theorem resetCore : Preserves P host.resetCore := by
  refine (h.waitUntil _ (h.inspect (by trivial))).bind fun _ => ?_
  refine (h.store _ _ (by trivial)).bind fun _ => ?_
  refine (h.waitUntil _ (h.inspect (by trivial))).bind fun _ => ?_
  exact h.pause _

theorem forceHostMode : Preserves P host.forceHostMode := by
  refine (h.load _ (by trivial)).bind fun config => ?_
  refine (h.store _ _ (by trivial)).bind fun _ => ?_
  refine (h.pause _).bind fun _ => ?_
  exact (h.waitUntil _ (h.inspect (by trivial))).bind fun _ => .pure _

theorem divideFifos : Preserves P host.divideFifos := by
  refine (h.store _ _ (by trivial)).bind fun _ => ?_
  refine (h.store _ _ (by trivial)).bind fun _ => ?_
  exact (Preserves.add _ _).bind fun start => h.store _ _ (by trivial)

theorem emptyFifos : Preserves P host.emptyFifos := by
  refine (h.store _ _ (by trivial)).bind fun _ => ?_
  refine (h.waitUntil _ (h.inspect (by trivial))).bind fun _ => ?_
  refine (h.store _ _ (by trivial)).bind fun _ => ?_
  exact (h.waitUntil _ (h.inspect (by trivial))).bind fun _ => .pure _

theorem armChannels : Maintains P H host.armChannels := by
  have hstore : ∀ r content, r.Inner →
      Maintains P H (host.core.store r content) :=
    fun r content hr => (h.store r content hr).maintains h.stop
  refine (Maintains.forM fun c => ?_).bind fun _ => hstore _ _ (by trivial)
  exact (h.quiesce c).bind fun _ => hstore _ _ rfl

/-- Configuring the core ends as powering the port does, or stops before
that. -/
theorem always_configure {Q : World Register σ → Prop}
    (hport : ∀ w, P w → (do
        host.core.updatePort { power := some true }
        host.core.delay host.settings.portPowerSettle).Always w (fun _ => Q) H)
    {w : World Register σ} (hw : P w) :
    host.configure.Always w (fun _ => Q) H := by
  refine (h.store _ _ (by trivial)).before h.stop hw fun _ w hw => ?_
  refine (h.store _ _ (by trivial)).before h.stop hw fun _ w hw => ?_
  refine h.resetCore.before h.stop hw fun _ w hw => ?_
  refine (h.store _ _ (by trivial)).before h.stop hw fun _ w hw => ?_
  refine (h.pause _).before h.stop hw fun _ w hw => ?_
  refine h.forceHostMode.before h.stop hw fun _ w hw => ?_
  refine h.divideFifos.before h.stop hw fun _ w hw => ?_
  refine h.emptyFifos.before h.stop hw fun _ w hw => ?_
  refine (h.store _ _ (by trivial)).before h.stop hw fun _ w hw => ?_
  refine (h.store _ _ (by trivial)).before h.stop hw fun _ w hw => ?_
  refine (h.armChannels w hw).bind fun _ w hw => ?_
  refine (h.write _ _ (by trivial)).before h.stop hw fun _ w hw => ?_
  refine (h.store _ _ (by trivial)).before h.stop hw fun _ w hw => ?_
  refine (h.store _ _ (by trivial)).before h.stop hw fun _ w hw => ?_
  exact hport w hw

/-- Bringing up the core ends as powering the port does, or before that, with or
without a result. -/
theorem always_init {Q : World Register σ → Prop} {power : PowerSwitch σ}
    (hpower : Preserves P power) (hend : ∀ w, P w → Q w)
    (hport : ∀ w, P w → (do
        host.core.updatePort { power := some true }
        host.core.delay host.settings.portPowerSettle).Always w (fun _ => Q) H)
    (s : Link) {w : World Register σ} (hw : P w) :
    ((host.init power).run.run s).Always w (fun _ => Q) H := by
  have hid : Preserves P (host.core.load .coreId) := h.load _ (by trivial)
  refine HostM.always_lift ((hpower w hw).weaken h.stop) fun granted w hw => ?_
  cases granted with
  | error e => exact .pure (hend w hw)
  | ok u =>
    refine HostM.always_lift (h.delay _ w hw) fun _ w hw => ?_
    refine HostM.always_lift ((hid w hw).weaken h.stop) fun id w hw => ?_
    split
    · rw [HostM.run_lift]
      exact (h.always_configure hport hw).bind fun _ _ hw => .pure hw
    · exact .pure (hend w hw)

end Host.Conducts

/-! ## Operations -/

/-- The power switch of an operation, if it has one, preserves `P`. -/
def Operation.PowerPreserves (P : World Register σ → Prop) :
    Operation σ → Prop
  | .init power | .start power _ => Preserves P power
  | _ => True

/-- `P` is left alone by readings of the port and by both ways of writing it,
too. -/
structure Host.ConductsAll (host : Host σ) (P H : World Register σ → Prop) :
    Prop extends host.Conducts P H where
  readPort : Preserves P (host.core.read .port)
  updatePort : ∀ change, Preserves P (host.core.updatePort change)
  acknowledgePort : ∀ changes, Preserves P (host.core.acknowledgePort changes)

namespace Host.ConductsAll

variable {host : Host σ} {P H : World Register σ → Prop}
  (h : host.ConductsAll P H)

include h

theorem tendsPort : host.TendsPort P where
  toTimeless := h.toTimeless
  readPort := h.readPort
  updatePort := h.updatePort
  acknowledgePort := h.acknowledgePort

theorem init {power : PowerSwitch σ} (hpower : Preserves P power) :
    HostM.Maintains P H (host.init power) := fun s w hw => by
  refine h.always_init hpower (fun _ h => h) (fun w hw => ?_) s hw
  exact (h.updatePort _).before h.stop hw fun _ w hw => h.delay _ w hw

theorem resetBus : HostM.Maintains P H host.resetBus := fun s w hw =>
  (h.tendsPort.resetBus s w hw).weaken h.stop

theorem enumerate : HostM.Maintains P H host.enumerate := fun s _ hw =>
  h.always_enumerate h.toBears (fun _ h => h) (fun _ h => h) h.resetBus s hw

theorem start {power : PowerSwitch σ} (hpower : Preserves P power)
    (timeout : Duration) : HostM.Maintains P H (host.start power timeout) := by
  have hfound := (h.tendsPort.awaitDevice timeout).maintains h.stop
  refine .bind (h.init hpower) fun _ => .bind (.lift hfound) fun found => ?_
  cases found with
  | false => exact .throw _
  | true =>
    refine .bind h.resetBus fun _ => .bind h.enumerate fun _ => ?_
    exact .tryCatch h.setIdle fun _ => .pure _

/-- What is maintained by the parts is maintained by every operation. -/
theorem perform {operation : Operation σ} (hp : operation.PowerPreserves P)
    (driver : Driver) : Maintains P H (operation.perform host driver) := by
  have hdevice : ∀ {p : HostM σ Unit}, HostM.Maintains P H p →
      Maintains P H (Operation.onDevice driver p) :=
    fun hp => (hp driver.state).bind fun _ => .pure _
  have hreply : ∀ {α : Type} {p : Run Register σ α} {reply : α → Reply},
      Preserves P p → Maintains P H (do return (reply (← p), driver)) :=
    fun hp => (hp.maintains h.stop).bind fun _ => .pure _
  cases operation with
  | version => exact hreply (h.load _ (by trivial))
  | isConnected => exact hreply h.tendsPort.isConnected
  | awaitDevice timeout => exact hreply (h.tendsPort.awaitDevice _)
  | control setup buffer =>
    exact ((h.carries _).control _ _).bind fun _ => .pure _
  | transfer x buffer length => exact (h.transfer _ _ _ _).bind fun _ => .pure _
  | init power => exact hdevice (h.init hp)
  | resetBus => exact hdevice h.resetBus
  | enumerate => exact hdevice h.enumerate
  | setIdle => exact hdevice h.setIdle
  | setInterface interface setting => exact hdevice (h.setInterface _ _)
  | start power timeout => exact hdevice (h.start hp timeout)
  | readReport report => exact (h.readReport _ _).bind fun _ => .pure _
  | poll => exact (h.poll _ _).bind fun _ => .pure _

theorem performAll {operations : List (Operation σ)}
    (hp : ∀ operation ∈ operations, operation.PowerPreserves P)
    (driver : Driver) : Maintains P H (driver.performAll host operations) := by
  induction operations generalizing driver with
  | nil => exact .pure _
  | cons operation rest ih =>
    refine (h.perform (hp operation List.mem_cons_self) driver).bind fun r => ?_
    refine Maintains.bind (ih (fun o ho => hp o ?_) r.2) fun _ => .pure _
    exact List.mem_cons_of_mem operation ho

end Host.ConductsAll

/-! ## Access by access -/

/-- `P` is left alone by the passing of time, by every write but those to the
port, by every reading of a common register, and by draining the receive
queue. -/
structure Host.Withstands (host : Host σ) (P : World Register σ → Prop) : Prop
    extends host.core.Timeless P where
  barrier : Preserves P host.core.barrier
  read : ∀ r, r.Common → Preserves P (host.core.read r)
  write : ∀ r v, r ≠ .port → Preserves P (host.core.write r v)
  drain : ∀ c room, Preserves P (host.drain c room)

namespace Host.Withstands

variable {host : Host σ} {P : World Register σ → Prop}
  (h : host.Withstands P)

include h

theorem load (r : Register) (hr : r.Common) :
    Preserves P (host.core.load r) :=
  (h.read r hr).bind fun _ => .pure _

theorem store (r : Register) (content : r.Content) (hr : r ≠ .port) :
    Preserves P (host.core.store r content) :=
  h.write r _ hr

theorem storeOnes (r : Register) (hr : r ≠ .port) :
    Preserves P (host.core.storeOnes r) :=
  h.write r _ hr

theorem tends (c : Channel) : host.Tends c P where
  toTimeless := h.toTimeless
  read := h.read
  frame v := h.write _ v (by nofun)
  split := h.store _ _ (by nofun)
  clear := h.storeOnes _ (by nofun)
  halt _ := h.store _ _ (by nofun)

theorem launch (x : Exchange) (chars : ChannelCharacteristics)
    (requested : Nat) (buffer : List Byte) :
    Preserves P (host.launch x chars requested buffer) := by
  refine (Preserves.narrow 19 requested).bind fun size => ?_
  refine (h.store _ _ (by nofun)).bind fun _ => h.barrier.bind fun _ => ?_
  refine (h.store _ _ (by nofun)).bind fun _ => h.barrier.bind fun _ => ?_
  refine .ite (fun _ => ?_) fun _ => .pure ()
  refine (Preserves.slice buffer 0 requested).bind fun packet => ?_
  exact .forM fun word => h.store _ _ (by nofun)

theorem attempt (s : Link) (x : Exchange) (buffer : List Byte) (room : Nat)
    (frame : Half) (fits : Bool) :
    Preserves P (host.attempt s x buffer room frame fits) := by
  refine .ite (fun _ => ?_) fun _ => .pure _
  refine (h.launch _ _ _ _).bind fun _ => ?_
  exact (h.tends x.channel).await rfl (h.drain x.channel) _ _ _

theorem offer (s : Link) (x : Exchange) (buffer : List Byte) (room : Nat) :
    Preserves P (host.offer s x buffer room) := by
  refine (h.store _ _ (by nofun)).bind fun _ => ?_
  refine (h.load _ (by trivial)).bind fun frame => ?_
  refine (h.storeOnes _ (by nofun)).bind fun _ => .ite (fun _ => ?_) fun _ => ?_
  · have hspace := (h.tends x.channel).awaitTxSpace
    exact (hspace _).bind fun _ => h.attempt _ _ _ _ _ _
  · exact h.attempt _ _ _ _ _ true

theorem transfer (s : Link) (x : Exchange) (buffer : List Byte)
    (length : Nat) : Preserves P (host.transfer s x buffer length) := by
  have htends := h.tends x.channel
  rw [host.transfer_eq]
  refine htends.quiesce.bind fun _ => .ite (fun _ => ?_) fun _ => ?_
  · exact htends.awaitFrame.bind fun _ => h.offer _ _ _ _
  · exact h.offer _ _ _ _

/-- What every access leaves alone is borne from beginning to end. -/
theorem conducts {H : World Register σ → Prop} (hstop : ∀ w, P w → H w) :
    host.Conducts P H where
  toTimeless := h.toTimeless
  stop := hstop
  delay d := (h.toTimeless.delay d).maintains hstop
  transfer s x buffer length := (h.transfer s x buffer length).maintains hstop
  read := h.read
  write := by
    rintro r v hr
    refine h.write r v ?_
    rintro rfl
    exact hr
  quiesce c := (h.tends c).quiesce.maintains hstop

/-- What is borne with nothing lost at a stop. -/
theorem bears : host.Bears P P := (h.conducts fun _ hw => hw).toBears

theorem control (s : Link) (setup : SetupPacket) (buffer : List Byte) :
    Preserves P (host.control s setup buffer) :=
  (h.bears.carries s).control setup buffer

theorem request (setup : SetupPacket) (buffer : List Byte) :
    HostM.Preserves P (host.request setup buffer) :=
  h.bears.request setup buffer

theorem setIdle : HostM.Preserves P host.setIdle := h.bears.setIdle

theorem setInterface (interface setting : Byte) :
    HostM.Preserves P (host.setInterface interface setting) :=
  h.bears.setInterface interface setting

theorem readReport (report : List Byte) (s : Link) :
    Preserves P ((host.readReport report).run s) :=
  h.bears.readReport report s

theorem poll (pad : Gamepad) (s : Link) :
    Preserves P ((pad.poll host).run s) :=
  h.bears.poll pad s

end Host.Withstands

/-- `P` is left alone by readings of the port and by both ways of writing it,
too. -/
structure Host.WithstandsAll (host : Host σ) (P : World Register σ → Prop) :
    Prop extends host.Withstands P where
  readPort : Preserves P (host.core.read .port)
  updatePort : ∀ change, Preserves P (host.core.updatePort change)
  acknowledgePort : ∀ changes, Preserves P (host.core.acknowledgePort changes)

namespace Host.WithstandsAll

variable {host : Host σ} {P : World Register σ → Prop}
  (h : host.WithstandsAll P)

include h

theorem conductsAll : host.ConductsAll P P where
  toConducts := h.conducts fun _ hw => hw
  readPort := h.readPort
  updatePort := h.updatePort
  acknowledgePort := h.acknowledgePort

/-- What withstands every kind of access withstands every operation. -/
theorem perform {operation : Operation σ} (hp : operation.PowerPreserves P)
    (driver : Driver) : Preserves P (operation.perform host driver) :=
  h.conductsAll.perform hp driver

theorem performAll {operations : List (Operation σ)}
    (hp : ∀ operation ∈ operations, operation.PowerPreserves P)
    (driver : Driver) : Preserves P (driver.performAll host operations) :=
  h.conductsAll.performAll hp driver

end Host.WithstandsAll

end UsbHost
