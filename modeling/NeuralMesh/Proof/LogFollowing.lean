import NeuralMesh.Cli.StreamLogs
import NeuralMesh.System.LogChanges

/-!
# The command line prints the whole output

The offset that `stream_logs` keeps is the width in bytes of what it printed, so it always lies
between two characters of the output, however it grows between the polls.
-/

namespace NeuralMesh

open Coordinator

/-- The coordinator and one reader. -/
structure LogSession where
  server : LogDb
  follow : Cli.Follow

namespace LogSession

variable (jobId : JobId)

/-- A turn of the loop whose request is answered. -/
def poll (s : LogSession) : LogSession :=
  { s with
    follow := Cli.streamLogs jobId (getJobLogs jobId (some s.follow.offset) s.server) s.follow }

inductive Step (s : LogSession) : LogSession → Prop
  | server {server : LogDb} (hchanges : s.server.Changes server) : Step s { s with server }
  | poll (hopen : s.follow.ended = none) : Step s (s.poll jobId)
  | lost {resp : Option Reply} (hopen : s.follow.ended = none) (hfails : Cli.Fails resp) :
      Step s { s with follow := Cli.streamLogs jobId resp s.follow }

abbrev Run : LogSession → LogSession → Prop := Relation.ReflTransGen (Step jobId)

/-- What was printed ends at the offset. -/
def Exact (s : LogSession) : Prop :=
  ShownUpTo Char.utf8Size (s.server.fullLog jobId).toList s.follow.printed.toList s.follow.offset

variable {jobId} {s t : LogSession}

theorem Exact.start (server : LogDb) : Exact jobId ⟨server, .start⟩ := .nil _

theorem Exact.server (hexact : s.Exact jobId) {server : LogDb}
    (hchanges : s.server.Changes server) : Exact jobId { s with server } := by
  obtain ⟨more, hmore⟩ := hchanges.fullLog jobId
  rw [Exact, hmore, String.toList_append]
  exact hexact.grow more.toList

/-- The server does not panic. -/
theorem Exact.isSome_getJobLogs (hexact : s.Exact jobId) :
    (getJobLogs jobId (some s.follow.offset) s.server).isSome := by
  cases hjob : s.server.db.jobs.get? jobId with
  | none =>
      rw [getJobLogs_of_none _ hjob]
      rfl
  | some job =>
      obtain ⟨rest, hrest, -⟩ := hexact.restFrom Char.utf8Size_pos
      rw [getJobLogs_of_job _ hjob, hrest]
      rfl

/-- A poll that is answered prints what was missing. -/
theorem Exact.poll (hexact : s.Exact jobId) :
    (s.poll jobId).Exact jobId ∧ (s.poll jobId).follow.printed = s.server.fullLog jobId := by
  obtain ⟨rest, hrest, hlog⟩ := hexact.restFrom Char.utf8Size_pos
  cases hjob : s.server.db.jobs.get? jobId with
  | none =>
      -- without the job there is no output, so nothing was printed
      rw [LogSession.poll, getJobLogs_of_none _ hjob, Cli.streamLogs_notFound]
      refine ⟨hexact, ?_⟩
      have hprefix := hexact.shown_prefix
      rw [LogDb.fullLog_of_none hjob] at hprefix ⊢
      exact String.toList_inj.mp (List.prefix_nil.mp hprefix)
  | some job =>
      rw [LogSession.poll, getJobLogs_of_job _ hjob, hrest, Option.map_some, Cli.streamLogs_answer]
      constructor
      · change ShownUpTo _ _ (s.follow.printed ++ String.ofList rest).toList
          (s.follow.offset + byteLength (String.ofList rest))
        rw [Exact, hlog] at hexact
        rw [hlog, byteLength_eq, String.toList_append, String.toList_ofList]
        exact hexact.all
      · change s.follow.printed ++ String.ofList rest = _
        rw [← String.toList_inj, String.toList_append, String.toList_ofList, hlog]

theorem Exact.step (hexact : s.Exact jobId) (hstep : Step jobId s t) : t.Exact jobId := by
  cases hstep with
  | server hchanges => exact hexact.server hchanges
  | poll _ => exact hexact.poll.1
  | lost _ hfails =>
      rw [Cli.streamLogs_of_fails hfails]
      exact hexact

theorem Run.exact (hrun : Run jobId s t) (hexact : s.Exact jobId) : t.Exact jobId := by
  induction hrun with
  | refl => exact hexact
  | tail _ hstep ih => exact ih.step hstep

/-- A loop that has ended ended with a poll that was answered, and does no more. -/
theorem Run.lastPoll (hrun : Run jobId s t) (hopen : s.follow.ended = none)
    (hended : t.follow.ended ≠ none) :
    ∃ u, Run jobId s u ∧ u.follow.ended = none ∧ Run jobId (u.poll jobId) t ∧
      t.follow = (u.poll jobId).follow := by
  induction hrun with
  | refl => exact absurd hopen hended
  | @tail u v hbefore hstep ih =>
      cases hstep with
      | server hchanges =>
          obtain ⟨last, hlast, hlastOpen, hafter, hsame⟩ := ih hended
          exact ⟨last, hlast, hlastOpen, hafter.tail (.server hchanges), hsame⟩
      | poll hu => exact ⟨u, hbefore, hu, .refl, rfl⟩
      | lost hu hfails =>
          rw [Cli.streamLogs_of_fails hfails] at hended
          exact absurd hu hended

end LogSession

/-- Throughout, the server has an answer for the offset and what is printed is a prefix of the
output; a loop that has ended printed the output as its last poll found it. -/
theorem stream_logs_exact {jobId : JobId} {server : LogDb} {t : LogSession}
    (hrun : LogSession.Run jobId ⟨server, .start⟩ t) :
    (getJobLogs jobId (some t.follow.offset) t.server).isSome ∧
      t.follow.printed.toList <+: (t.server.fullLog jobId).toList ∧
      (t.follow.ended ≠ none → ∃ u, LogSession.Run jobId ⟨server, .start⟩ u ∧
        u.follow.ended = none ∧ LogSession.Run jobId (u.poll jobId) t ∧
        t.follow = (u.poll jobId).follow ∧ t.follow.printed = u.server.fullLog jobId) := by
  have hexact := hrun.exact (.start server)
  refine ⟨hexact.isSome_getJobLogs, hexact.shown_prefix, fun hended => ?_⟩
  obtain ⟨u, hbefore, hopen, hafter, hsame⟩ := hrun.lastPoll rfl hended
  refine ⟨u, hbefore, hopen, hafter, hsame, ?_⟩
  rw [hsame]
  exact (hbefore.exact (.start server)).poll.2

/-- An append of two characters in three bytes between two polls. -/
theorem stream_logs_exact_assigned :
    ∃ t, LogSession.Run "a" ⟨quietJob, .start⟩ t ∧ t.follow.printed = "é." ∧
      (getJobLogs "a" (some t.follow.offset) t.server).isSome ∧
      t.follow.printed.toList <+: (t.server.fullLog "a").toList := by
  have hrun : LogSession.Run "a" ⟨quietJob, .start⟩
      (LogSession.poll "a"
        { LogSession.poll "a" ⟨quietJob, .start⟩ with
          server := (appendJobLog "a" "é." quietJob).2 }) :=
    ((Relation.ReflTransGen.single (.poll rfl)).tail (.server (.append "a" "é."))).tail
      (.poll (by decide +kernel))
  exact ⟨_, hrun, by decide +kernel, (stream_logs_exact hrun).1, (stream_logs_exact hrun).2.1⟩

end NeuralMesh
