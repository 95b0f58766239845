import UsbHost.Gamepad.Pad
import UsbHost.Proofs.Gamepad.Report

/-!
# Edges of buttons

A gamepad answers every input report with the buttons that were pressed and
released since the last one, and passes over every other message.  One update
tells how the buttons got from one state to the next (`Update.Follows`); the
updates of a run are linked, each following the state of the one before
(`Update.Linked`), as nothing between them changes what the pad remembers.  All
laws of runs come from this link.

## Main results

* `Update.of_follows` — the edges between two states.
* `Gamepad.linked_receiveAll` — the updates of a run are linked.
* `Update.Linked.released_between` — between two presses of a button there is a
  release.
* `Gamepad.edges_replay` — the edges of a run tell the buttons after it.
-/

namespace UsbHost

/-! ## One update -/

namespace Update

/-- The buttons after an update, by its edges alone. -/
def replay (u : Update) (before : Buttons) : Buttons :=
  (before.union u.pressed).diff u.released

/-- The edges of an update tell how the buttons got from `before` to those of
its state: none is pressed and released at once, only those that were up are
pressed, only those that were down are released, and there is no other
change. -/
structure Follows (u : Update) (before : Buttons) : Prop where
  disjoint : ∀ i ∈ u.pressed, i ∉ u.released
  pressed_up : ∀ i ∈ u.pressed, i ∉ before
  released_down : ∀ i ∈ u.released, i ∈ before
  replay_eq : u.replay before = u.state.buttons

/-- The update from one state to the next follows the buttons of the one. -/
theorem of_follows (previous next : PadState) :
    (Update.of previous next).Follows previous.buttons where
  disjoint _ hpressed hreleased :=
    (FlagSet.mem_diff.1 hpressed).2 (FlagSet.mem_diff.1 hreleased).1
  pressed_up _ hpressed := (FlagSet.mem_diff.1 hpressed).2
  released_down _ hreleased := (FlagSet.mem_diff.1 hreleased).1
  replay_eq := by
    apply FlagSet.ext_mem
    intro i
    simp only [replay, Update.of, FlagSet.mem_diff, FlagSet.mem_union]
    by_cases hprevious : i ∈ previous.buttons <;>
      by_cases hnext : i ∈ next.buttons <;> simp [hprevious, hnext]

theorem mem_replay {u : Update} {b : Buttons} {i : Nat} :
    i ∈ u.replay b ↔ (i ∈ b ∨ i ∈ u.pressed) ∧ i ∉ u.released := by
  rw [replay, FlagSet.mem_diff, FlagSet.mem_union]

/-! ## Linked updates -/

/-- Each update follows the buttons of the one before it, and the first follows
those given. -/
def Linked : Buttons → List Update → Prop
  | _, [] => True
  | b, u :: rest => u.Follows b ∧ Linked u.state.buttons rest

/-- The buttons after some updates, by their edges alone. -/
def replayAll (b : Buttons) (us : List Update) : Buttons :=
  us.foldl (fun b u => u.replay b) b

theorem linked_append {b : Buttons} {us vs : List Update} :
    Linked b (us ++ vs) ↔ Linked b us ∧ Linked (replayAll b us) vs := by
  induction us generalizing b with
  | nil => simp [Linked, replayAll]
  | cons u rest ih =>
    constructor
    · rintro ⟨hu, hrest⟩
      obtain ⟨hlinked, hvs⟩ := ih.1 hrest
      rw [← hu.replay_eq] at hvs
      exact ⟨⟨hu, hlinked⟩, hvs⟩
    · rintro ⟨⟨hu, hlinked⟩, hvs⟩
      refine ⟨hu, ih.2 ⟨hlinked, ?_⟩⟩
      rw [← hu.replay_eq]
      exact hvs

/-- A button that is down stays down while no update releases it. -/
theorem mem_replayAll {b : Buttons} {us : List Update} {i : Nat} (hb : i ∈ b)
    (hus : ∀ u ∈ us, i ∉ u.released) : i ∈ replayAll b us := by
  induction us generalizing b with
  | nil => exact hb
  | cons u rest ih =>
    have hu : i ∈ u.replay b :=
      mem_replay.2 ⟨.inl hb, hus u List.mem_cons_self⟩
    exact ih hu fun v hv => hus v (List.mem_cons_of_mem u hv)

/-- Between two presses of a button there is a release.  It is down after the
first, so without a release it would be down before the second. -/
theorem Linked.released_between {b : Buttons}
    {earlier between later : List Update} {u v : Update} {i : Nat}
    (h : Linked b (earlier ++ u :: (between ++ v :: later)))
    (hu : i ∈ u.pressed) (hv : i ∈ v.pressed) :
    ∃ w ∈ between, i ∈ w.released := by
  obtain ⟨-, hfirst, hrest⟩ := linked_append.1 h
  obtain ⟨-, hsecond, -⟩ := linked_append.1 hrest
  have hdown : i ∈ u.state.buttons := by
    rw [← hfirst.replay_eq]
    exact mem_replay.2 ⟨.inr hu, hfirst.disjoint i hu⟩
  apply Classical.byContradiction
  intro hnone
  refine hsecond.pressed_up i hv (mem_replayAll hdown fun w hw hreleased => ?_)
  exact hnone ⟨w, hw, hreleased⟩

end Update

/-! ## Runs of a pad -/

namespace Gamepad

open Update

/-- A message that is not a report is passed over. -/
theorem receive_other {pad : Gamepad} {message : List Byte}
    (h : ¬ PadState.IsReport message) :
    pad.receive message = (none, pad) := by
  rw [receive, PadState.ofReport?_of_not_isReport h]

theorem receive_report {pad : Gamepad} {message : List Byte}
    (h : PadState.IsReport message) :
    pad.receive message =
      (some (.of pad.state (.view message)), ⟨.view message⟩) := by
  rw [receive, PadState.ofReport?_of_isReport h]

/-- The updates of a run are linked, and their edges lead to the buttons that
the pad remembers after it. -/
theorem linked_receiveAll (pad : Gamepad) (messages : List (List Byte)) :
    Linked pad.state.buttons (pad.receiveAll messages).1 ∧
      replayAll pad.state.buttons (pad.receiveAll messages).1 =
        (pad.receiveAll messages).2.state.buttons := by
  induction messages generalizing pad with
  | nil => exact ⟨trivial, rfl⟩
  | cons message rest ih =>
    have hnext := ih (pad.receive message).2
    by_cases h : PadState.IsReport message
    · have hfollows := of_follows pad.state (.view message)
      rw [receive_report h] at hnext
      rw [receiveAll, receive_report h]
      refine ⟨⟨hfollows, hnext.1⟩, ?_⟩
      show replayAll ((Update.of pad.state (.view message)).replay _) _ = _
      rw [hfollows.replay_eq]
      exact hnext.2
    · rw [receive_other h] at hnext
      rw [receiveAll, receive_other h]
      exact hnext

/-- What a pad answers to messages of any kind and length, after any run.  A
message that is not a report is not answered and changes nothing.  A report is
answered with an update to its state, which the pad then remembers, and the
edges of the update follow the buttons remembered before.  So the edges of a
whole run lead from the first buttons to the last, a button that is pressed
twice has been released in between, and bit 11 is nowhere. -/
theorem edges_replay (pad : Gamepad) (messages : List (List Byte)) :
    let updates := (pad.receiveAll messages).1
    let now := (pad.receiveAll messages).2
    (∀ message, ¬ PadState.IsReport message →
      now.receive message = (none, now)) ∧
    (∀ message, PadState.IsReport message →
      ∃ u : Update, now.receive message = (some u, ⟨u.state⟩) ∧
        PadState.ofReport? message = some u.state ∧
        u.Follows now.state.buttons) ∧
    replayAll pad.state.buttons updates = now.state.buttons ∧
    (∀ (earlier between later : List Update) (u v : Update) (i : Nat),
      updates = earlier ++ u :: (between ++ v :: later) →
        i ∈ u.pressed → i ∈ v.pressed → ∃ w ∈ between, i ∈ w.released) ∧
    11 ∉ pad.state.buttons ∧ 11 ∉ now.state.buttons ∧
    ∀ u ∈ updates,
      11 ∉ u.state.buttons ∧ 11 ∉ u.pressed ∧ 11 ∉ u.released := by
  intro updates now
  have hlinked : Linked pad.state.buttons updates :=
    (pad.linked_receiveAll messages).1
  have hreplay := (pad.linked_receiveAll messages).2
  have hnone := Buttons.not_mem_eleven
  refine ⟨fun message => receive_other, ?answered, hreplay, ?twice,
    hnone _, hnone _, fun u _ => ⟨hnone _, hnone _, hnone _⟩⟩
  case answered =>
    intro message h
    exact ⟨.of now.state (.view message), receive_report h,
      PadState.ofReport?_of_isReport h, of_follows _ _⟩
  case twice =>
    intro earlier between later u v i hsplit hu hv
    rw [hsplit] at hlinked
    exact hlinked.released_between hu hv

/-- A button is pressed, released and pressed again, with another message in
between: the two presses are told apart by the release, and the other message
leaves the pad as it was. -/
theorem pressed_again_after_release :
    let down : PadState := { buttons := FlagSet.truncate 0x1000 }
    let up : PadState := {}
    let other : List Byte := [0x01, 0x03, 0x02]
    let pad : Gamepad := {}
    let updates : List Update := [.of up down, .of down up, .of up down]
    let now : Gamepad := ⟨down⟩
    pad.receiveAll [down.report, other, up.report, down.report] =
        (updates, now) ∧
      replayAll pad.state.buttons updates = now.state.buttons ∧
      12 ∈ (Update.of up down).pressed ∧ 12 ∈ (Update.of down up).released ∧
      now.receive other = (none, now) ∧
      ∃ u, now.receive up.report = (some u, ⟨u.state⟩) ∧
        PadState.ofReport? up.report = some u.state := by
  intro down up other pad updates now
  have hrun : pad.receiveAll [down.report, other, up.report, down.report] =
      (updates, now) := by decide
  have hlaws :=
    edges_replay pad [down.report, other, up.report, down.report]
  rw [hrun] at hlaws
  obtain ⟨hother, hreport, hreplay, htwice, -⟩ := hlaws
  have hpressed : 12 ∈ (Update.of up down).pressed := by decide
  obtain ⟨w, hw, hreleased⟩ := htwice [] [.of down up] [] (.of up down)
    (.of up down) 12 rfl hpressed hpressed
  rw [List.mem_singleton.1 hw] at hreleased
  obtain ⟨u, hu, hstate, -⟩ := hreport up.report (by decide)
  exact ⟨hrun, hreplay, hpressed, hreleased, hother other (by decide), u, hu,
    hstate⟩

end Gamepad

end UsbHost
