import BlockCanvas.Proofs.Preview
import Mathlib.Data.List.Chain

/-!
Who listens to a session, and what they are told. Listeners come at any time and all are told the same.
What one of them has heard is never the same text twice in a row, never out of order, and never behind
the preview (`Canvas.Reachable.listener_run`).
-/
namespace BlockCanvas

namespace Session
variable {s s' : Session}

/-! ### The calls of one listener -/

def told (s s' : Session) : List Delivery :=
  if s'.preview.source = s.preview.source then [] else [⟨s'.canvas.revision, s'.preview⟩]

theorem told_of_preview (h : s'.preview = s.preview) : told s s' = [] := by
  rw [told, h, if_pos rfl]

theorem getElem?_notify (revision : Nat) (program : Python.Program) (listeners : List Listener)
    (k : Nat) : (notify revision program listeners)[k]? =
      listeners[k]?.map fun l => l.call revision program := by
  induction listeners generalizing k with
  | nil => rfl
  | cons l rest ih =>
    cases k with
    | zero => rfl
    | succ k => exact ih k

def Called (s s' : Session) (news : List Delivery) : Prop :=
  ∀ (k : Nat) (l : Listener), s.listeners[k]? = some l → s'.listeners[k]? = some ⟨l.calls ++ news⟩

theorem called_refresh (s : Session) : s.Called s.refresh (told s s.refresh) := by
  intro k l hk
  have hs := s.refreshed
  generalize s.refresh = s' at hs
  cases hs with
  | quiet => simpa [told_of_preview] using hk
  | same _ hsame => simpa [told, hsame] using hk
  | told _ hnew => simp [told, hnew, getElem?_notify, hk, Listener.call]

theorem called_settle (s : Session) (r : Hand × Canvas × Outcome) :
    s.Called (s.settle r).1 (told s (s.settle r).1) :=
  called_refresh { s with
    hand := r.1, canvas := r.2.1, notices := s.notices ++ r.2.2.notice?.toList }

theorem called_edited {α : Type} (s : Session) (r : Canvas × Except Refusal α) :
    s.Called (s.edited r).1 (told s (s.edited r).1) :=
  called_refresh { s with canvas := r.1 }

theorem called_idle (hl : s'.listeners = s.listeners) (hp : s'.preview = s.preview) :
    s.Called s' (told s s') := by
  intro k l hk
  rw [told_of_preview hp, hl, hk, List.append_nil]

theorem called_subscribe (s : Session) : s.Called s.subscribe (told s s.subscribe) := by
  intro k l hk
  have hlt := (List.getElem?_eq_some_iff.1 hk).1
  have hnone : s.told s.subscribe = [] := told_of_preview rfl
  rw [hnone, List.append_nil]
  exact (List.getElem?_append_left hlt).trans hk

theorem called_step (s : Session) (op : Operation) : s.Called (op.apply s) (told s (op.apply s)) := by
  cases op with
  | subscribe => exact s.called_subscribe
  | beginTransfer t => exact called_idle rfl rfl
  | cancelTransfer => exact called_idle rfl rfl
  | drop p => exact s.called_settle (s.hand.drop s.canvas p)
  | activate id => exact s.called_settle (s.hand.activate s.canvas id)
  | discard id => exact s.called_settle (s.hand.discard s.canvas id)
  | attachConnector id => exact s.called_settle (s.hand.attachConnector s.canvas id)
  | setLiteral slot text => exact s.called_edited (s.canvas.setLiteral slot text)
  | typeLine slot text => exact s.called_edited (s.canvas.pushLine slot text)
  | removeLine slot index => exact s.called_edited (s.canvas.removeLine slot index)
  | setName id name => exact s.called_edited (s.canvas.setName id name)
  | setOperator id op => exact s.called_edited (s.canvas.setOperator id op)
  | takeNotices => exact called_idle rfl rfl

/-! ### Revisions -/

namespace Coherent

theorem revision_settle (h : s.Coherent) (g : Gesture) :
    (s.settle (g.apply s.hand s.canvas)).1.canvas = s.canvas ∨
      s.canvas.revision < (s.settle (g.apply s.hand s.canvas)).1.canvas.revision := by
  have hcanvas : (s.settle (g.apply s.hand s.canvas)).1.canvas =
      (g.apply s.hand s.canvas).2.1.drainEvents.2 := canvas_refresh _
  have hg := g.gestured h.reachable.sound s.hand
  rw [hcanvas]
  generalize (g.apply s.hand s.canvas).2 = r at hg
  cases hg with
  | left => exact Or.inl (Canvas.drainEvents_snd h.taken)
  | changed first more _ _ hr _ => exact Or.inr hr

theorem revision_edited (h : s.Coherent) (e : Canvas.Edit) :
    (s.edited (e.apply s.canvas)).1.canvas = s.canvas ∨
      s.canvas.revision < (s.edited (e.apply s.canvas)).1.canvas.revision := by
  have hcanvas : (s.edited (e.apply s.canvas)).1.canvas = (e.apply s.canvas).1.drainEvents.2 :=
    canvas_refresh _
  have hstep := e.step h.reachable.sound
  rw [hcanvas]
  generalize e.apply s.canvas = r at hstep
  cases hstep with
  | refused => exact Or.inl (Canvas.drainEvents_snd h.taken)
  | committed _ first more _ hset =>
    simp only [Canvas.setting, Prod.mk.injEq] at hset
    exact Or.inr (hset.1 ▸ Nat.lt_succ_self s.canvas.revision)

theorem revision_step (h : s.Coherent) (op : Operation) :
    (op.apply s).canvas = s.canvas ∨ s.canvas.revision < (op.apply s).canvas.revision := by
  cases op with
  | subscribe => exact Or.inl rfl
  | beginTransfer t => exact Or.inl rfl
  | cancelTransfer => exact Or.inl rfl
  | drop p => exact h.revision_settle (.drop p)
  | activate id => exact h.revision_settle (.activate id)
  | discard id => exact h.revision_settle (.discard id)
  | attachConnector id => exact h.revision_settle (.attachConnector id)
  | setLiteral slot text => exact h.revision_edited (.setLiteral slot text)
  | typeLine slot text => exact h.revision_edited (.pushLine slot text)
  | removeLine slot index => exact h.revision_edited (.removeLine slot index)
  | setName id name => exact h.revision_edited (.setName id name)
  | setOperator id op => exact h.revision_edited (.setOperator id op)
  | takeNotices => exact Or.inl rfl

theorem revision_le (h : s.Coherent) (op : Operation) :
    s.canvas.revision ≤ (op.apply s).canvas.revision := by
  rcases h.revision_step op with hc | hlt
  · rw [hc]
  · exact Nat.le_of_lt hlt

theorem revision_lt (h : s.Coherent) (op : Operation)
    (hnew : (op.apply s).preview.source ≠ s.preview.source) :
    s.canvas.revision < (op.apply s).canvas.revision := by
  refine (h.revision_step op).resolve_left fun hc => hnew ?_
  have hfollows := h.step op
  rw [hfollows.coherent.current, hfollows.options, hc, h.current]

end Coherent

/-! ### What one listener has heard -/

/-- What a listener has heard since the session was as in the first state, now that it is as in the
second. -/
structure Heard (s s' : Session) (log : List Delivery) : Prop where
  changes : log.IsChain fun d d' => d.program.source ≠ d'.program.source
  rising : log.Pairwise fun d d' => d.revision < d'.revision
  past : ∀ d ∈ log, s.canvas.revision < d.revision ∧ d.revision ≤ s'.canvas.revision
  latest : ((log.getLast?.map Delivery.program).getD s.preview).source = s'.preview.source

namespace Heard

theorem subscribe (s : Session) : s.Heard s.subscribe [] :=
  ⟨.nil, .nil, nofun, rfl⟩

theorem step {s₀ : Session} {log : List Delivery} (h : s₀.Heard s log) (hs : s.Coherent)
    (hle : s₀.canvas.revision ≤ s.canvas.revision) (op : Operation) :
    s₀.Heard (op.apply s) (log ++ told s (op.apply s)) := by
  by_cases hsame : (op.apply s).preview.source = s.preview.source
  · rw [told, if_pos hsame, List.append_nil]
    exact ⟨h.changes, h.rising,
      fun d hd => ⟨(h.past d hd).1, Nat.le_trans (h.past d hd).2 (hs.revision_le op)⟩,
      h.latest.trans hsame.symm⟩
  · -- a text that is told belongs to a later revision than all that was told before
    rw [told, if_neg hsame]
    have hlt := hs.revision_lt op hsame
    refine ⟨?changes, ?rising, ?past, by simp⟩
    case changes =>
      refine List.isChain_append.2 ⟨h.changes, .singleton _, fun d hd d' hd' => ?_⟩
      obtain rfl := Option.some.inj hd'
      have hlatest := h.latest
      rw [Option.mem_def.1 hd] at hlatest
      exact fun he => hsame (he.symm.trans hlatest)
    case rising =>
      refine List.pairwise_append.2 ⟨h.rising, List.pairwise_singleton _ _, fun d hd d' hd' => ?_⟩
      rw [List.mem_singleton.1 hd']
      exact Nat.lt_of_le_of_lt (h.past d hd).2 hlt
    case past =>
      intro d hd
      rcases List.mem_append.1 hd with hd | hd
      · exact ⟨(h.past d hd).1, Nat.le_trans (h.past d hd).2 (hs.revision_le op)⟩
      · rw [List.mem_singleton.1 hd]
        exact ⟨Nat.lt_of_le_of_lt hle hlt, Nat.le_refl _⟩

theorem exists_run {s₀ : Session} {k : Nat} {l : Listener} (hk : s.listeners[k]? = some l)
    (h : s₀.Heard s l.calls) (hs : s.Coherent) (hle : s₀.canvas.revision ≤ s.canvas.revision)
    (ops : List Operation) :
    ∃ l, (s.run ops).listeners[k]? = some l ∧ s₀.Heard (s.run ops) l.calls := by
  induction ops generalizing s l with
  | nil => exact ⟨l, hk, h⟩
  | cons op ops ih =>
    exact ih (s.called_step op k l hk) (h.step hs hle op) (hs.step op).coherent
      (Nat.le_trans hle (hs.revision_le op))

end Heard
end Session

/-- Somebody begins to listen at any point of any run. Whatever happens then, what it has heard is in order
and tells it the preview, which is the program of the canvas; whatever happens next, it is called once if
that changes the text, with the new revision and the new program, and not called otherwise. -/
theorem Canvas.Reachable.listener_run {c : Canvas} (h : c.Reachable) (o : Python.Options)
    (before after : List Session.Operation) :
    let start := (Session.start c o).run before
    let now := start.subscribe.run after
    let place := start.listeners.length
    ∃ listener, now.listeners[place]? = some listener ∧ start.Heard now listener.calls ∧
      now.preview = now.canvas.program o ∧
      ∀ next : Session.Operation, (next.apply now).listeners[place]? =
        some ⟨listener.calls ++ now.told (next.apply now)⟩ := by
  intro start now place
  have hstart : (Session.start c o).Follows start := (Session.coherent_start h o).run before
  have hnew : start.subscribe.listeners[place]? = some {} := by
    simp [Session.subscribe, place]
  have hsub := hstart.coherent.step .subscribe
  have hnow : start.subscribe.Follows now := hsub.coherent.run after
  obtain ⟨listener, hplace, hheard⟩ :=
    (Session.Heard.subscribe start).exists_run hnew hsub.coherent (Nat.le_refl _) after
  have hcurrent := hnow.coherent.current
  rw [hnow.options.trans (hsub.options.trans hstart.options)] at hcurrent
  exact ⟨listener, hplace, hheard, hcurrent, fun next => now.called_step next place listener hplace⟩

theorem Canvas.listener_run_renamed :
    let c := Canvas.Edit.run .empty [.instantiate .assignment .origin]
    let before : List Session.Operation := [.subscribe, .setName 1 "a"]
    let after : List Session.Operation :=
      [.setName 1 "a", .setName 7 "b", .beginTransfer (.template .print), .drop ⟨400, 400⟩]
    let start := (Session.start c {}).run before
    let now := start.subscribe.run after
    now.listeners = [⟨[⟨2, ⟨"a = None\n", ["a"]⟩⟩, ⟨4, ⟨"a = None\nprint()\n", ["a"]⟩⟩]⟩,
        ⟨[⟨4, ⟨"a = None\nprint()\n", ["a"]⟩⟩]⟩] ∧
      c.Reachable ∧ ∃ listener, now.listeners[1]? = some listener ∧
        start.Heard now listener.calls ∧ now.preview = now.canvas.program {} ∧
        ∀ next : Session.Operation, (next.apply now).listeners[1]? =
          some ⟨listener.calls ++ now.told (next.apply now)⟩ := by
  intro c before after start now
  have hc : c.Reachable := Reachable.run (.start _) _
  exact ⟨by decide +kernel, hc, Canvas.Reachable.listener_run hc {} before after⟩

end BlockCanvas
