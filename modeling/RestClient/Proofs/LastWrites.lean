import Mathlib.Data.List.Induction
import Mathlib.Data.List.Nodup
import RestClient.Assoc

/-!
# Last writes

A history says for each moment which key is set then, and to what, if any is.  What it makes of an
assignment is a map that is ordered by the time of the last writes: a key that was set has its last
value alone, behind all keys that were set before it, and the other entries stay as they were.
-/

namespace RestClient
namespace Assoc

variable {κ ν : Type} {writes : List (Option (κ × ν))} {next : Option (κ × ν)}
  {start entries : List (κ × ν)} {entry : κ × ν} {key other : κ} {value : ν} {time : Nat}

/-!
## Times
-/

def writtenKeys (writes : List (Option (κ × ν))) : List κ :=
  writes.filterMap (Option.map (·.1))

/-- At this time the key of the entry is set to its value, and later it is not set again. -/
structure IsLastWrite (writes : List (Option (κ × ν))) (time : Nat) (entry : κ × ν) : Prop where
  written : writes[time]? = some (some entry)
  last : forall later value, time < later -> writes[later]? ≠ some (some (entry.1, value))

theorem IsLastWrite.lt (h : IsLastWrite writes time entry) : time < writes.length :=
  (List.getElem?_eq_some_iff.mp h.written).1

theorem isLastWrite_snoc : IsLastWrite (writes ++ [next]) time entry <->
    time = writes.length ∧ next = some entry ∨
      IsLastWrite writes time entry ∧ forall value, next ≠ some (entry.1, value) := by
  constructor
  · rintro ⟨hwritten, hlast⟩
    rcases Nat.lt_trichotomy time writes.length with hlt | rfl | hgt
    · right
      rw [List.getElem?_append_left hlt] at hwritten
      refine ⟨⟨hwritten, ?_⟩, ?_⟩
      · intro later value hlater hagain
        have hinside := (List.getElem?_eq_some_iff.mp hagain).1
        refine hlast later value hlater ?_
        rw [List.getElem?_append_left hinside, hagain]
      · intro value hnext
        refine hlast writes.length value hlt ?_
        rw [List.getElem?_concat_length, hnext]
    · rw [List.getElem?_concat_length] at hwritten
      exact Or.inl ⟨rfl, Option.some.inj hwritten⟩
    · rw [List.getElem?_eq_none (by simpa using Nat.succ_le_of_lt hgt)] at hwritten
      cases hwritten
  · rintro (⟨rfl, rfl⟩ | ⟨h, hnext⟩)
    · refine ⟨List.getElem?_concat_length, ?_⟩
      intro later value hlater
      rw [List.getElem?_eq_none (by simpa using Nat.succ_le_of_lt hlater)]
      exact nofun
    · refine ⟨(List.getElem?_append_left h.lt).trans h.written, ?_⟩
      intro later value hlater hagain
      rcases Nat.lt_trichotomy later writes.length with hlt | rfl | hgt
      · rw [List.getElem?_append_left hlt] at hagain
        exact h.last later value hlater hagain
      · rw [List.getElem?_concat_length] at hagain
        exact hnext value (Option.some.inj hagain)
      · rw [List.getElem?_eq_none (by simpa using Nat.succ_le_of_lt hgt)] at hagain
        cases hagain

theorem writtenKeys_snoc :
    writtenKeys (writes ++ [next]) = writtenKeys writes ++ (next.map (·.1)).toList := by
  unfold writtenKeys
  rw [List.filterMap_append]
  cases next <;> rfl

theorem exists_isLastWrite (h : key ∈ writtenKeys writes) :
    exists time value, IsLastWrite writes time (key, value) := by
  induction writes using List.reverseRecOn with
  | nil => cases h
  | append_singleton writes next ih =>
    by_cases hnext : exists value, next = some (key, value)
    · rcases hnext with ⟨value, rfl⟩
      exact ⟨_, value, isLastWrite_snoc.mpr (Or.inl ⟨rfl, rfl⟩)⟩
    · rw [writtenKeys_snoc, List.mem_append] at h
      rcases h with hbefore | hnow
      · rcases ih hbefore with ⟨time, value, hlast⟩
        exact ⟨time, value, isLastWrite_snoc.mpr
          (Or.inr ⟨hlast, fun value hvalue => hnext ⟨value, hvalue⟩⟩)⟩
      · cases next with
        | none => cases hnow
        | some entry =>
          rw [Option.map_some, Option.toList_some, List.mem_singleton] at hnow
          exact absurd ⟨entry.2, by rw [hnow]⟩ hnext

theorem IsLastWrite.mem_writtenKeys (h : IsLastWrite writes time (key, value)) :
    key ∈ writtenKeys writes :=
  List.mem_filterMap.mpr ⟨some (key, value), List.mem_of_getElem? h.written, rfl⟩

/-!
## Entries of a key
-/

variable [DecidableEq κ]

theorem get?_eq_head? (entries : List (κ × ν)) (key : κ) :
    get? entries key = (entries.filter fun entry => entry.1 = key).head?.map (·.2) := by
  rw [List.head?_filter]
  rfl

theorem filter_set_self (entries : List (κ × ν)) (key : κ) (value : ν) :
    (set entries key value).filter (fun entry => entry.1 = key) = [(key, value)] := by
  have hothers : (entries.filter fun entry => entry.1 ≠ key).filter
      (fun entry => entry.1 = key) = [] := by
    rw [List.filter_eq_nil_iff]
    intro entry hentry
    simpa using (List.mem_filter.mp hentry).2
  unfold set
  rw [List.filter_append, hothers]
  simp

theorem filter_set_of_ne (entries : List (κ × ν)) (value : ν) (h : other ≠ key) :
    (set entries key value).filter (fun entry => entry.1 = other) =
      entries.filter fun entry => entry.1 = other := by
  have hkept : (entries.filter fun entry => entry.1 ≠ key).filter
      (fun entry => entry.1 = other) = entries.filter fun entry => entry.1 = other := by
    rw [List.filter_filter]
    apply List.filter_congr
    intro entry _
    by_cases hentry : entry.1 = other
    · simp [hentry, h]
    · simp [hentry]
  unfold set
  rw [List.filter_append, hkept]
  simp [Ne.symm h]

theorem filter_ne_set (entries : List (κ × ν)) (key : κ) (value : ν) :
    ((set entries key value).filter fun entry => entry.1 ≠ key) =
      entries.filter fun entry => entry.1 ≠ key := by
  unfold set
  rw [List.filter_append, List.filter_filter]
  simp

/-!
## Histories
-/

def write (entries : List (κ × ν)) : Option (κ × ν) -> List (κ × ν)
  | none => entries
  | some (key, value) => set entries key value

def writeAll (entries : List (κ × ν)) (writes : List (Option (κ × ν))) : List (κ × ν) :=
  writes.foldl write entries

structure Keeps (writes : List (Option (κ × ν))) (start entries : List (κ × ν)) : Prop where
  distinct : (start.map (·.1)).Nodup -> (entries.map (·.1)).Nodup
  /-- A key that was set has its last value, and no other entry. -/
  holds : forall time key value, IsLastWrite writes time (key, value) ->
    (entries.filter fun entry => entry.1 = key) = [(key, value)]
  others : (entries.filter fun entry => entry.1 ∉ writtenKeys writes) =
    start.filter fun entry => entry.1 ∉ writtenKeys writes
  /-- Behind a key that was set there are only keys that were set later. -/
  ordered : entries.Pairwise fun earlier later => forall time, IsLastWrite writes time earlier ->
    exists time', time < time' ∧ IsLastWrite writes time' later

theorem keeps_nil (start : List (κ × ν)) : Keeps [] start start := by
  constructor
  · exact id
  · intro time key value hlast
    cases hlast.written
  · rfl
  · refine List.pairwise_of_forall ?_
    intro earlier later time hlast
    cases hlast.written

theorem Keeps.idle (h : Keeps writes start entries) : Keeps (writes ++ [none]) start entries := by
  have hlast : forall {time} {entry : κ × ν}, IsLastWrite (writes ++ [none]) time entry <->
      IsLastWrite writes time entry := by
    intro time entry
    rw [isLastWrite_snoc]
    simp
  have hwritten : writtenKeys (writes ++ [none]) = writtenKeys writes := by
    rw [writtenKeys_snoc]
    exact List.append_nil _
  constructor
  · exact h.distinct
  · intro time key value hkey
    exact h.holds time key value (hlast.mp hkey)
  · rw [hwritten]
    exact h.others
  · refine h.ordered.imp ?_
    intro earlier later hordered time hearlier
    rcases hordered time (hlast.mp hearlier) with ⟨time', hlt, hlater⟩
    exact ⟨time', hlt, hlast.mpr hlater⟩

theorem Keeps.set (h : Keeps writes start entries) (key : κ) (value : ν) :
    Keeps (writes ++ [some (key, value)]) start (set entries key value) := by
  -- Of another key, the last write is the one that it was.
  have hlast : forall {time} {entry : κ × ν}, entry.1 ≠ key ->
      (IsLastWrite (writes ++ [some (key, value)]) time entry <->
        IsLastWrite writes time entry) := by
    intro time entry hne
    rw [isLastWrite_snoc]
    constructor
    · rintro (⟨_, heq⟩ | ⟨hentry, _⟩)
      · exact absurd (congrArg Prod.fst (Option.some.inj heq)).symm hne
      · exact hentry
    · intro hentry
      refine Or.inr ⟨hentry, ?_⟩
      intro other heq
      exact hne (congrArg Prod.fst (Option.some.inj heq)).symm
  constructor
  · intro hdistinct
    exact nodup_keys_set (h.distinct hdistinct) key value
  · intro time other last hother
    rcases isLastWrite_snoc.mp hother with ⟨_, heq⟩ | ⟨hbefore, hkept⟩
    · cases heq
      exact filter_set_self entries key value
    · have hne : other ≠ key := by
        rintro rfl
        exact hkept value rfl
      rw [filter_set_of_ne entries value hne]
      exact h.holds time other last hbefore
  · have hfilter : forall list : List (κ × ν),
        (list.filter fun entry => entry.1 ∉ writtenKeys (writes ++ [some (key, value)])) =
          (list.filter fun entry => entry.1 ≠ key).filter
            fun entry => entry.1 ∉ writtenKeys writes := by
      intro list
      rw [List.filter_filter]
      apply List.filter_congr
      intro entry _
      rw [writtenKeys_snoc]
      simp
    rw [hfilter, hfilter, filter_ne_set, List.filter_comm, h.others, List.filter_comm]
  · unfold Assoc.set
    rw [List.pairwise_append]
    refine ⟨?_, List.pairwise_singleton _ _, ?_⟩
    · refine (h.ordered.filter _).imp_of_mem ?_
      intro earlier later hearlier hlater hordered time htime
      have hne : forall {entry}, entry ∈ (entries.filter fun entry => entry.1 ≠ key) ->
          entry.1 ≠ key := by
        intro entry hentry
        simpa using (List.mem_filter.mp hentry).2
      rcases hordered time ((hlast (hne hearlier)).mp htime) with ⟨time', hlt, hlater'⟩
      exact ⟨time', hlt, (hlast (hne hlater)).mpr hlater'⟩
    · intro earlier hearlier later hlater time htime
      rw [List.mem_singleton.mp hlater]
      have hne : earlier.1 ≠ key := by simpa using (List.mem_filter.mp hearlier).2
      exact ⟨writes.length, ((hlast hne).mp htime).lt,
        isLastWrite_snoc.mpr (Or.inl ⟨rfl, rfl⟩)⟩

theorem writeAll_snoc (start : List (κ × ν)) :
    writeAll start (writes ++ [next]) = write (writeAll start writes) next :=
  List.foldl_concat _ _ _ _

theorem keeps_writeAll (writes : List (Option (κ × ν))) (start : List (κ × ν)) :
    Keeps writes start (writeAll start writes) := by
  induction writes using List.reverseRecOn with
  | nil => exact keeps_nil start
  | append_singleton writes next ih =>
    rw [writeAll_snoc]
    cases next with
    | none => exact ih.idle
    | some entry => exact ih.set entry.1 entry.2

/-!
## Look-ups
-/

/-- After the history the key has this value: its last one, or the first one that it had before. -/
def LastValue (writes : List (Option (κ × ν))) (start : List (κ × ν)) (key : κ) (value : ν) :
    Prop :=
  (exists time, IsLastWrite writes time (key, value)) ∨
    key ∉ writtenKeys writes ∧ get? start key = some value

theorem Keeps.get?_of_isLastWrite (h : Keeps writes start entries)
    (hlast : IsLastWrite writes time (key, value)) : get? entries key = some value := by
  rw [get?_eq_head?, h.holds time key value hlast]
  rfl

theorem Keeps.get?_of_not_mem (h : Keeps writes start entries) (hkey : key ∉ writtenKeys writes) :
    get? entries key = get? start key := by
  have hfilter : forall list : List (κ × ν), (list.filter fun entry => entry.1 = key) =
      (list.filter fun entry => entry.1 ∉ writtenKeys writes).filter
        fun entry => entry.1 = key := by
    intro list
    rw [List.filter_filter]
    apply List.filter_congr
    intro entry _
    by_cases hentry : entry.1 = key
    · simp [hentry, hkey]
    · simp [hentry]
  rw [get?_eq_head?, get?_eq_head?, hfilter entries, hfilter start, h.others]

theorem Keeps.get?_eq_some_iff (h : Keeps writes start entries) :
    get? entries key = some value <-> LastValue writes start key value := by
  unfold LastValue
  by_cases hkey : key ∈ writtenKeys writes
  · rcases exists_isLastWrite hkey with ⟨time, last, hlast⟩
    rw [h.get?_of_isLastWrite hlast]
    constructor
    · rintro ⟨⟩
      exact Or.inl ⟨time, hlast⟩
    · rintro (⟨time', hlast'⟩ | ⟨hnever, _⟩)
      · rw [← h.get?_of_isLastWrite hlast, h.get?_of_isLastWrite hlast']
      · exact absurd hkey hnever
  · rw [h.get?_of_not_mem hkey]
    constructor
    · intro hvalue
      exact Or.inr ⟨hkey, hvalue⟩
    · rintro (⟨time, hlast⟩ | ⟨_, hvalue⟩)
      · exact absurd hlast.mem_writtenKeys hkey
      · exact hvalue

/-!
## Histories of entries
-/

/-- Entries of new and distinct keys come to stand behind those that are there. -/
theorem writeAll_of_nodup (h : ((start ++ entries).map (·.1)).Nodup) :
    writeAll start (entries.map some) = start ++ entries := by
  induction entries generalizing start with
  | nil => exact (List.append_nil start).symm
  | cons entry rest ih =>
    rw [List.append_cons] at h ⊢
    have hset : Assoc.set start entry.1 entry.2 = start ++ [entry] := by
      unfold Assoc.set
      rw [List.filter_eq_self.mpr]
      intro other hother
      rw [List.map_append, List.map_append, List.nodup_append, List.nodup_append] at h
      have hne := h.1.2.2 other.1 (List.mem_map_of_mem hother) entry.1 (by simp)
      simpa using hne
    rw [← ih h, ← hset]
    rfl

theorem writeAll_writeAll (writes : List (Option (κ × ν))) :
    writeAll [] ((writeAll [] writes).map some) = writeAll [] writes :=
  writeAll_of_nodup ((keeps_writeAll writes []).distinct List.nodup_nil)

end Assoc
end RestClient
