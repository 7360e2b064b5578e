import Mathlib.Logic.Function.Basic
import Provisioning.Lib.Fanout

/-!
# Replicas

A replica is a table that is kept up to date by messages, each of which says what has become of one
key. Such a message may come more than once as long as it is not overtaken: the second time it
changes nothing. So between two changes of the original a replica is in one of two states, and which
of them it is may be unknown to whoever sends the messages.

## Following one change

`Follows` is the relation between a replica and a change of the original while it is not known
whether the message about it has arrived. It is a disjunction and not an equation on purpose: the
sender that has heard nothing sends again, and what then matters is that the message leads to the
same table from both sides (`Follows.apply`).

## Retracing all of them

A replica that follows change after change has at any time been what the original was at some
earlier time. `Retraces` says this of a whole list of messages, with the time as its index, which
only grows. It is built from the left, one message at a time, since messages arrive so, and it is
said on a set of `keys`, as a replica that hears of some keys only still retraces the original on
those.

Repetitions in a row are harmless, and this is proved once, for the list without them
(`Retraces.of_destutter`), not in the rules that build the list up.
-/

namespace Replica

variable {κ ν : Type} [DecidableEq κ]

/-- What has become of a key. -/
structure Assignment (κ ν : Type) where
  key : κ
  value : Option ν

namespace Assignment

/-- The table with the key set, or taken out. -/
def apply (a : Assignment κ ν) (table : κ → Option ν) : κ → Option ν :=
  Function.update table a.key a.value

variable {a : Assignment κ ν} {table : κ → Option ν} {key : κ}

@[simp] theorem apply_self : a.apply table a.key = a.value := Function.update_self ..

theorem apply_of_ne (h : key ≠ a.key) : a.apply table key = table key := Function.update_of_ne h ..

/-- A table that has the value already stays as it is. -/
theorem apply_of_agrees (h : table a.key = a.value) : a.apply table = table := by
  unfold apply
  rw [← h]
  exact Function.update_eq_self ..

/-- The second time nothing changes. -/
@[simp] theorem apply_apply : a.apply (a.apply table) = a.apply table :=
  apply_of_agrees apply_self

end Assignment

/-- Take in one message after the other. -/
def replay (table : κ → Option ν) (messages : List (Assignment κ ν)) : κ → Option ν :=
  messages.foldl (fun table a => a.apply table) table

section Replay

variable {a : Assignment κ ν} {before table : κ → Option ν} {messages : List (Assignment κ ν)}

@[simp] theorem replay_nil : replay table ([] : List (Assignment κ ν)) = table := rfl

@[simp] theorem replay_cons : replay table (a :: messages) = replay (a.apply table) messages := rfl

/-- Replaying is one fold, so it can be cut anywhere. -/
theorem replay_append (messages' : List (Assignment κ ν)) :
    replay table (messages ++ messages') = replay (replay table messages) messages' :=
  List.foldl_append

/-- The replica has or has not taken in the change, the last one that the original has made. -/
def Follows (before : κ → Option ν) (a : Assignment κ ν) (table : κ → Option ν) : Prop :=
  table = before ∨ table = a.apply before

/-- Whether it had or not, once it takes in the change it has. -/
theorem Follows.apply (h : Follows before a table) : a.apply table = a.apply before := by
  rcases h with rfl | rfl
  · rfl
  · exact Assignment.apply_apply

/-- **Messages about one change**, however many there are, leave the replica following it. -/
theorem Follows.replay (h : Follows before a table) (hall : ∀ b ∈ messages, b = a) :
    Follows before a (replay table messages) ∧
      (messages ≠ [] → Replica.replay table messages = a.apply before) := by
  induction messages generalizing table with
  | nil => exact ⟨h, fun hne => absurd rfl hne⟩
  | cons b messages ih =>
    have hb : b = a := hall b List.mem_cons_self
    subst hb
    have hnext : Follows before b (b.apply table) := Or.inr h.apply
    obtain ⟨hfollows, hrest⟩ := ih hnext fun c hc => hall c (List.mem_cons_of_mem b hc)
    refine ⟨hfollows, fun _ => ?_⟩
    rw [replay_cons]
    cases messages with
    | nil => exact h.apply
    | cons c messages => exact hrest (List.cons_ne_nil c messages)

/-- A replica that agrees with the change has taken it in. -/
theorem Follows.of_agrees (h : Follows before a table) (hagrees : table a.key = a.value) :
    table = a.apply before := by
  rw [← h.apply, Assignment.apply_of_agrees hagrees]

theorem replay_concat : replay table (messages ++ [a]) = a.apply (replay table messages) :=
  replay_append [a]

/-- **Repetitions do not matter**, as long as nothing comes between them. -/
theorem replay_destutter {ε : Type} [DecidableEq ε] (f : ε → Option (Assignment κ ν)) (l : List ε) :
    replay table ((l.destutter (· ≠ ·)).filterMap f) = replay table (l.filterMap f) := by
  induction l using List.reverseRecOn with
  | nil => rfl
  | append_singleton l e ih =>
    rw [List.destutter_concat]
    split
    · -- The repetition is what came last.
      next hlast =>
      rw [List.filterMap_append, replay_append, ← ih]
      cases hf : f e with
      | none => rw [List.filterMap_cons_none hf, List.filterMap_nil, replay_nil]
      | some a =>
        rw [List.filterMap_cons_some hf, List.filterMap_nil, replay_cons, replay_nil]
        obtain ⟨l', hl'⟩ := List.getLast?_eq_some_iff.mp hlast
        rw [hl', List.filterMap_append, List.filterMap_cons_some hf, List.filterMap_nil,
          replay_concat, Assignment.apply_apply]
    · rw [List.filterMap_append, List.filterMap_append, replay_append, replay_append, ih]

/-- What is said of one key can be picked out. -/
theorem replay_filter {ε : Type} {f : ε → Option (Assignment κ ν)} {wanted : ε → Bool} {key : κ}
    {l : List ε} (h : ∀ e ∈ l, ∀ a, f e = some a → a.key = key → wanted e = true) :
    replay table ((l.filter wanted).filterMap f) key = replay table (l.filterMap f) key := by
  induction l using List.reverseRecOn with
  | nil => rfl
  | append_singleton l e ih =>
    have hinit := ih fun e' he' => h e' (List.mem_append_left _ he')
    have hlast := h e (List.mem_append_right _ List.mem_cons_self)
    rw [List.filter_append, List.filterMap_append, List.filterMap_append, replay_append,
      replay_append]
    cases hf : f e with
    | none =>
      rw [List.filterMap_cons_none hf, List.filterMap_nil, replay_nil]
      by_cases hwanted : wanted e = true
      · rw [List.filter_cons_of_pos hwanted, List.filter_nil, List.filterMap_cons_none hf]
        exact hinit
      · rw [List.filter_cons_of_neg hwanted, List.filter_nil]
        exact hinit
    | some a =>
      rw [List.filterMap_cons_some hf, List.filterMap_nil, replay_cons, replay_nil]
      -- A message about the key is wanted, and both sides end with its value; one about another key
      -- does not matter to either.
      by_cases hkey : a.key = key
      · rw [List.filter_cons_of_pos (hlast a hf hkey), List.filter_nil,
          List.filterMap_cons_some hf, List.filterMap_nil, replay_cons, replay_nil, ← hkey,
          Assignment.apply_self, Assignment.apply_self]
      · rw [Assignment.apply_of_ne (Ne.symm hkey)]
        by_cases hwanted : wanted e = true
        · rw [List.filter_cons_of_pos hwanted, List.filter_nil, List.filterMap_cons_some hf,
            List.filterMap_nil, replay_cons, replay_nil, Assignment.apply_of_ne (Ne.symm hkey)]
          exact hinit
        · rw [List.filter_cons_of_neg hwanted, List.filter_nil]
          exact hinit

end Replay

/-! ## Retracing the history of the original -/

/-! The history is a function of time and not a list of tables, and `limit` is how far it has come;
so a history that goes on is the same function with a larger limit. -/

section Retracing

variable {ε ι : Type} {history history' : Nat → κ → Option ν} {limit limit' j k : Nat}
  {keys keys' : κ → Prop} {f : ε → Option (Assignment κ ν)} {messages more : List ε} {e : ε}

/-- Message by message, the replica is on `keys` as the original has been at some time of its
`history`, which has come to `limit`, and never goes back. When it has taken in all `messages`, it
has come to `k`. -/
inductive Retraces (history : Nat → κ → Option ν) (limit : Nat) (keys : κ → Prop)
    (f : ε → Option (Assignment κ ν)) : List ε → Nat → Prop where
  | nil : Retraces history limit keys f [] 0
  | concat (messages : List ε) (e : ε) (j k : Nat)
      (before : Retraces history limit keys f messages j) (onward : j ≤ k) (le : k ≤ limit)
      (shows : ∀ key, keys key →
        replay (history 0) ((messages ++ [e]).filterMap f) key = history k key) :
      Retraces history limit keys f (messages ++ [e]) k

namespace Retraces

theorem le (h : Retraces history limit keys f messages k) : k ≤ limit := by
  cases h with
  | nil => exact Nat.zero_le limit
  | concat messages e j _ before onward le shows => exact le

theorem shows (h : Retraces history limit keys f messages k) {key : κ} (hkey : keys key) :
    replay (history 0) (messages.filterMap f) key = history k key := by
  cases h with
  | nil => rfl
  | concat messages e j _ before onward le shows => exact shows key hkey

theorem of_nil (h : Retraces history limit keys f [] k) : k = 0 := by
  generalize hall : [] = all at h
  cases h with
  | nil => rfl
  | concat messages e j _ before onward le shows =>
    exact absurd hall.symm (List.concat_ne_nil e messages)

/-- Before its last message it was at some earlier time. -/
theorem of_concat (h : Retraces history limit keys f (messages ++ [e]) k) :
    ∃ j, j ≤ k ∧ Retraces history limit keys f messages j := by
  generalize hall : messages ++ [e] = all at h
  cases h with
  | nil => exact absurd hall (List.concat_ne_nil e messages)
  | concat messages' e' j _ before onward le shows =>
    obtain ⟨rfl, -⟩ := List.append_inj' hall rfl
    exact ⟨j, onward, before⟩

/-- What has been is not affected by what is still to come. -/
theorem longer (h : Retraces history limit keys f messages k) (hle : limit ≤ limit')
    (hsame : ∀ k ≤ limit, history' k = history k) :
    Retraces history' limit' keys f messages k := by
  induction h with
  | nil => exact nil
  | concat messages e j k before onward le shows ih =>
    refine concat messages e j k ih onward (Nat.le_trans le hle) ?_
    rw [hsame k le, hsame 0 (Nat.zero_le limit)]
    exact shows

/-- One message after the other brings the replica to `k`. -/
theorem append (h : Retraces history limit keys f messages j) (hjk : j ≤ k) (hk : k ≤ limit)
    (hshows : ∀ l, l ≠ [] → l <+: more → ∀ key, keys key →
      replay (history 0) ((messages ++ l).filterMap f) key = history k key) :
    ∃ i, i ≤ k ∧ Retraces history limit keys f (messages ++ more) i := by
  induction more using List.reverseRecOn with
  | nil => exact ⟨j, hjk, by rw [List.append_nil]; exact h⟩
  | append_singleton more e ih =>
    obtain ⟨i, hi, hmore⟩ := ih fun l hne hl => hshows l hne (hl.trans (List.prefix_append ..))
    refine ⟨k, Nat.le_refl k, ?_⟩
    have hlast := hshows (more ++ [e]) (List.concat_ne_nil e more) List.prefix_rfl
    rw [← List.append_assoc] at hlast ⊢
    exact concat _ e i k hmore hi hk hlast

/-- So it was at every time before. -/
theorem take (h : Retraces history limit keys f messages k) (n : Nat) :
    ∃ j, j ≤ k ∧ Retraces history limit keys f (messages.take n) j := by
  induction h with
  | nil => exact ⟨0, Nat.le_refl 0, by rw [List.take_nil]; exact nil⟩
  | concat messages e j k before onward le shows ih =>
    rcases Nat.lt_or_ge messages.length n with hlt | hge
    · rw [List.take_of_length_le (by rw [List.length_append]; exact hlt)]
      exact ⟨k, Nat.le_refl k, concat messages e j k before onward le shows⟩
    · rw [List.take_append_of_le_length hge]
      obtain ⟨i, hi, htake⟩ := ih
      exact ⟨i, Nat.le_trans hi onward, htake⟩

/-- Of some keys one need only hear what is said of them. -/
theorem filter {wanted : ε → Bool} (h : Retraces history limit keys f messages k)
    (hkeys : ∀ key, keys' key → keys key)
    (hwanted : ∀ e ∈ messages, ∀ a, f e = some a → keys' a.key → wanted e = true) :
    ∃ j, j ≤ k ∧ Retraces history limit keys' f (messages.filter wanted) j := by
  induction h with
  | nil => exact ⟨0, Nat.le_refl 0, nil⟩
  | concat messages e j k before onward le shows ih =>
    obtain ⟨i, hi, hfilter⟩ := ih fun e' he' => hwanted e' (List.mem_append_left _ he')
    by_cases he : wanted e = true
    · refine ⟨k, Nat.le_refl k, ?_⟩
      have hshows : ∀ key, keys' key →
          replay (history 0) (((messages ++ [e]).filter wanted).filterMap f) key =
            history k key := by
        intro key hkey
        rw [replay_filter fun e' he' a ha hsame => hwanted e' he' a ha (hsame ▸ hkey)]
        exact shows key (hkeys key hkey)
      rw [List.filter_append, List.filter_cons_of_pos he, List.filter_nil] at hshows ⊢
      exact concat _ e i k hfilter (Nat.le_trans hi onward) le hshows
    · refine ⟨i, Nat.le_trans hi onward, ?_⟩
      rw [List.filter_append, List.filter_cons_of_neg he, List.filter_nil, List.append_nil]
      exact hfilter

/-- Repetitions do no harm. -/
theorem of_destutter [DecidableEq ε]
    (h : Retraces history limit keys f (messages.destutter (· ≠ ·)) k) :
    Retraces history limit keys f messages k := by
  induction messages using List.reverseRecOn generalizing k with
  | nil => exact h
  | append_singleton messages e ih =>
    have hshows : ∀ key, keys key →
        replay (history 0) ((messages ++ [e]).filterMap f) key = history k key := by
      intro key hkey
      rw [← replay_destutter]
      exact h.shows hkey
    rw [List.destutter_concat] at h
    split at h
    · exact concat messages e k k (ih h) (Nat.le_refl k) h.le hshows
    · obtain ⟨j, hj, hbefore⟩ := h.of_concat
      exact concat messages e j k (ih hbefore) hj h.le hshows

/-- Nor do messages that say nothing. -/
theorem of_filterMap {g : ι → Option ε} {all : List ι}
    (h : Retraces history limit keys f (all.filterMap g) k) :
    Retraces history limit keys (fun i => (g i).bind f) all k := by
  induction all using List.reverseRecOn generalizing k with
  | nil =>
    obtain rfl := of_nil h
    exact nil
  | append_singleton all i ih =>
    have hshows : ∀ key, keys key →
        replay (history 0) ((all ++ [i]).filterMap fun i => (g i).bind f) key =
          history k key := by
      intro key hkey
      rw [← List.filterMap_filterMap]
      exact h.shows hkey
    rw [List.filterMap_append] at h
    cases hi : g i with
    | none =>
      rw [List.filterMap_cons_none hi, List.filterMap_nil, List.append_nil] at h
      exact concat all i k k (ih h) (Nat.le_refl k) h.le hshows
    | some e =>
      rw [List.filterMap_cons_some hi, List.filterMap_nil] at h
      obtain ⟨j, hj, hbefore⟩ := h.of_concat
      exact concat all i j k (ih hbefore) hj h.le hshows

end Retraces

end Retracing

end Replica
