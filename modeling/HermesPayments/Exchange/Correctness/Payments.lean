import HermesPayments.Exchange.Provenance

/-!
# `HermesPayments.Exchange.Correctness.Payments` — what is paid, and on whose word

Three statements about any number of processes that exchange messages, with any commands, kills, restarts, and messages
that are late, lost, repeated or published by others. Everything a process holds can be traced (`records_sourced`). A
payment is dispatched for an intent, a quote and an approval that can be traced in the past of the dispatch
(`dispatch_sourced`). A receipt that settles a payment was built from the wallet's answer, or both sides stand for it
(`receipt_backed`).
-/

namespace HermesPayments

open Lib PaymentState

/-- A node holds the record under the id, in memory or in the snapshot file. -/
def Node.Holds (n : Node) (id : String) (d : SnapshotRecord) : Prop :=
  (∃ s r, n.proc = some s ∧ s.orchestrator.record? id = some r ∧ r.snapshot = d) ∨ n.world.record? id = some d

theorem Contents.OfNode.holds {C : Contents} {n : Node} {id : String} {d : SnapshotRecord} (hn : C.OfNode n)
    (hd : n.Holds id d) : C.record id d := by
  rcases hd with ⟨s, r, hproc, hr, rfl⟩ | hfile
  · exact (hn.2 s hproc).2.records id r hr
  · obtain ⟨snap, hsnap, hget⟩ := Option.bind_eq_some_iff.mp hfile
    exact (hn.1 snap hsnap).1 id d hget

/-! ## A conversation

The payer submits, the recipient quotes, and the payer's wallet does not say whether it has paid, so the payment is settled
by the recipient's receipt. Each party reads the whole board whenever it is told to. -/

namespace Sample

/-- A copy of a message, under the message's own id. -/
def copy (m : PaymentMessage) : PeerMessage :=
  let id := match m with
    | .intent m  => m.id
    | .quote m   => m.id
    | .receipt m => m.id
  ⟨id, m, messageAuthor m, 0⟩

/-- One command's environment: the wallet leaves open whether it has paid, the transport hands out the board. -/
def reading (board : List PaymentMessage) : ProcessEnv :=
  { penv with
    adapter   := adapter (.error (.ambiguousResult "timeout"))
    transport := ⟨fun _ => .ok "message", fun _ => .ok (board.map copy)⟩ }

/-- A party is told a command. -/
def told (x : Exchange Party) (k : Party × Command) : Event (Exchange Party) (ExchangeEvent Party) :=
  match (x.nodes k.1).proc with
  | none => ⟨x, .others [], ⟨x.board ++ [], x.nodes⟩⟩
  | some s =>
      let out := s.handle (parties k.1) (reading x.board) (.ok k.2)
      let e : NodeEvent := .handled (reading x.board) (.ok k.2) out.result
      ⟨x, .party k.1 e, ⟨x.board ++ sends (e.performed (parties k.1) (x.nodes k.1)),
        Function.update x.nodes k.1 ⟨(x.nodes k.1).world.after out.effects, some out.state⟩⟩⟩

/-- Up to the approval. -/
def agreeing : List (Party × Command) :=
  [(.payer, .submitIntent order), (.recipient, .receive none), (.recipient, .acceptIntent "i"),
    (.recipient, .publishQuote offer), (.payer, .receive none), (.payer, .acceptQuote "q"), (.payer, .prepare),
    (.payer, .approve "i" "quote 1" "hash")]

/-- The payment, and the receipt for it. -/
def settling : List (Party × Command) :=
  [(.payer, .execute), (.recipient, .verifyPublishReceipt "i" (some "quote 1") "ref" none), (.payer, .receive none),
    (.payer, .acceptReceipt "digest")]

theorem told_step (x : Exchange Party) (k : Party × Command) : ExchangeStep parties x (told x k).seen (told x k).after := by
  unfold told
  split
  · exact .others fun m hm => absurd hm List.not_mem_nil
  · next s hproc =>
      have hnode : NodeStep (parties k.1) _ _ _ := .handled (x.nodes k.1).world s (reading x.board) (.ok k.2)
      rw [← hproc] at hnode
      refine .party hnode ?_
      intro penv parsed hline limit ms hms m hm
      cases hline
      cases hms
      obtain ⟨m', hm', rfl⟩ := List.mem_map.mp hm
      exact hm'

theorem told_run (ks : List (Party × Command)) : ∃ h, ExchangeRun parties h (playState told opened ks) := by
  have hbefore (x : Exchange Party) (k : Party × Command) : (told x k).before = x := by
    unfold told
    split
    · rfl
    · rfl
  obtain ⟨h, hrun⟩ := started_run
  exact ⟨_, run_playEvents hbefore told_step hrun ks⟩

/-- The state a conversation of the two parties leads to. -/
def agreed : Exchange Party := playState told opened agreeing

def settled : Exchange Party := playState told opened (agreeing ++ settling)

theorem settled_holds : ∃ d, (settled.nodes .payer).Holds "i" d ∧ d.state = SETTLED ∧
    d.receipt.map PaymentReceipt.settlementRef = some "ref" ∧
    d.intent.recipient.pubkey = (parties .recipient).identity.pubkey := by
  have hfound : (((settled.nodes .payer).proc.bind fun s => s.orchestrator.record? "i").any fun r =>
      r.state = SETTLED ∧ r.receipt.map PaymentReceipt.settlementRef = some "ref" ∧
        r.intent.recipient.pubkey = recipient.pubkey) = true := by decide +kernel
  obtain ⟨r, hr, hparts⟩ := (Option.any_eq_true _ _).mp hfound
  obtain ⟨s, hs, hr⟩ := Option.bind_eq_some_iff.mp hr
  exact ⟨r.snapshot, .inl ⟨s, r, hs, hr, rfl⟩, of_decide_eq_true hparts⟩

end Sample

section

variable {ι : Type} [DecidableEq ι] {config : ι → ProcessConfig} {h : ExchangeHistory ι} {x : Exchange ι} {p : ι}
  {id : String} {d : SnapshotRecord}

/-- **Every record** a party holds has its sources in what has happened. -/
theorem records_sourced (hrun : ExchangeRun config h x) (hd : (x.nodes p).Holds id d) : Sourced config h p id d :=
  (hrun.sourced p).holds hd

theorem records_sourced_settled :
    ∃ h d, d.state = SETTLED ∧ Sourced Sample.parties h Sample.Party.payer "i" d := by
  obtain ⟨h, hrun⟩ := Sample.told_run (Sample.agreeing ++ Sample.settling)
  obtain ⟨d, hd, hstate, _⟩ := Sample.settled_holds
  exact ⟨h, d, hstate, records_sourced hrun hd⟩

/-- **A payment is dispatched** only for an intent that was submitted here or received from the board, with the payload the
    wallet had prepared for what a quote of the intent asked and for the amounts of the intent, after the approver was told
    to approve this payload: all of it in the past of the dispatch. -/
theorem dispatch_sourced (hrun : ExchangeRun config h x) {j : Nat} {e : Event (Exchange ι) (ExchangeEvent ι)}
    {event : NodeEvent} {hash : String} {payload : Bytes} (he : h[j]? = some e) (hseen : e.seen = .party p event)
    (hw : .peer (.policy (.executeCall id payload hash)) ∈ event.performed (config p) (e.before.nodes p)) :
    ∃ i q prep a, i.id = id ∧ IntentSource config (h.take j) p i ∧ PreparedFrom config (h.take j) p id i prep q ∧
      prep.preparedPayload = payload ∧ prep.preparedHash = hash ∧
      ApprovalSource config (h.take j) p id a ∧ a.preparedHash = hash := by
  obtain ⟨hpast, hstep⟩ := hrun.at_position he
  rw [hseen] at hstep
  generalize hafter : e.after = x' at hstep
  cases hstep with
  | party hnode _ => exact ExchangeRun.dispatch_sources hpast hnode hw

theorem dispatch_sourced_payment : ∃ h : ExchangeHistory Sample.Party, ∃ i q prep a, i.id = "i" ∧
    IntentSource Sample.parties h .payer i ∧ PreparedFrom Sample.parties h .payer "i" i prep q ∧
      prep.preparedPayload = [1, 2, 3] ∧ prep.preparedHash = "hash" ∧
      ApprovalSource Sample.parties h .payer "i" a ∧ a.preparedHash = "hash" := by
  obtain ⟨h, hrun⟩ := Sample.told_run Sample.agreeing
  have hpaid := hrun.snoc (Sample.told_step Sample.agreed (.payer, .execute))
  obtain ⟨event, hseen, hw⟩ : ∃ event, (Sample.told Sample.agreed (.payer, .execute)).seen = .party .payer event ∧
      .peer (.policy (.executeCall "i" [1, 2, 3] "hash")) ∈ event.performed (Sample.parties .payer)
        (Sample.agreed.nodes .payer) := ⟨_, rfl, by decide⟩
  have hpayment := dispatch_sourced hpaid (List.getElem?_concat_length) hseen hw
  exact ⟨_, hpayment⟩

/-- A party has published the receipt: on its operator's word, or after its wallet has verified the amount of the intent it
    tracks, under the receipt's reference. -/
def PublishedBy (config : ι → ProcessConfig) (h : ExchangeHistory ι) (p : ι) (rc : PaymentReceipt) : Prop :=
  Told h p (.publishReceipt rc) ∨ ∃ e ∈ h, ∃ s penv amountSat,
    Handling e p s penv (.verifyPublishReceipt rc.intentId (some rc.quoteId) rc.settlementRef amountSat) ∧
      rc.recipient = (config p).identity ∧ Attests penv s rc

/-- **A receipt that settles a payment** is for the intent, and the payment was dispatched. It was built from the wallet's
    answer, or the wallet has verified the amount under its reference and the recipient, when it is one of the parties, has
    published it. -/
theorem receipt_backed (hrun : ExchangeRun config h x) {p' : ι}
    (hkeys : ∀ p₁ p₂, (config p₁).identity.pubkey = (config p₂).identity.pubkey → p₁ = p₂)
    (hd : (x.nodes p).Holds id d) {rc : PaymentReceipt} (hrc : d.receipt = some rc)
    (hrecipient : d.intent.recipient.pubkey = (config p').identity.pubkey) :
    rc.IsFor id d.intent ∧ (∃ prep, d.prepared = some prep ∧ Dispatched config h p id prep) ∧
      ((∃ prep res, WalletAnswered h p prep res ∧ rc.settlementRef = res.settlementRef ∧ rc.feeSat = res.feeSat) ∨
        (∃ v, v.verified = true ∧ PolicyPerformed config h p (.verifyCall id rc.settlementRef d.intent.amountSat (.ok v))) ∧
          PublishedBy config h p' rc) := by
  have hsourced := (hrun.sourced p).holds hd
  obtain ⟨hspent, hfor, hsource⟩ := hsourced.receipt rc hrc
  refine ⟨hfor, hsourced.spent hspent, ?_⟩
  cases hsource with
  | built hanswered href hfee => exact .inl ⟨_, _, hanswered, href, hfee⟩
  | received horigin hverified hcall =>
      refine .inr ⟨⟨_, hverified, hcall⟩, ?_⟩
      have hauthor : (messageAuthor (.receipt rc)).pubkey = (config p').identity.pubkey := hfor.recipient.trans hrecipient
      cases horigin with
      | others houtside => exact absurd hauthor (houtside p')
      | party he hhandling hpublishes =>
          obtain rfl := hkeys _ _ (hpublishes.author.symm.trans hauthor)
          cases hpublishes with
          | publishReceipt _ => exact .inl ⟨_, he, _, _, hhandling⟩
          | verifyPublishReceipt hintent hquote href hlocal hattests =>
              subst hintent hquote href
              exact .inr ⟨_, he, _, _, _, hhandling, hlocal, hattests⟩

theorem receipt_backed_settled : ∃ (h : ExchangeHistory Sample.Party) (rc : PaymentReceipt) (d : SnapshotRecord),
    rc.IsFor "i" d.intent ∧ (∃ prep, d.prepared = some prep ∧ Dispatched Sample.parties h .payer "i" prep) ∧
      ((∃ prep res, WalletAnswered h Sample.Party.payer prep res ∧ rc.settlementRef = res.settlementRef ∧
          rc.feeSat = res.feeSat) ∨
        (∃ v, v.verified = true ∧ PolicyPerformed Sample.parties h .payer
            (.verifyCall "i" rc.settlementRef d.intent.amountSat (.ok v))) ∧
          PublishedBy Sample.parties h .recipient rc) := by
  obtain ⟨h, hrun⟩ := Sample.told_run (Sample.agreeing ++ Sample.settling)
  obtain ⟨d, hd, _, hreceipt, hrecipient⟩ := Sample.settled_holds
  obtain ⟨rc, hrc, _⟩ := Option.map_eq_some_iff.mp hreceipt
  have hkeys : ∀ p₁ p₂, (Sample.parties p₁).identity.pubkey = (Sample.parties p₂).identity.pubkey → p₁ = p₂ := by
    intro p₁ p₂ hkey
    cases p₁ with
    | payer =>
        cases p₂ with
        | payer => rfl
        | recipient => exact absurd hkey (by decide)
    | recipient =>
        cases p₂ with
        | payer => exact absurd hkey (by decide)
        | recipient => rfl
  exact ⟨h, rc, d, receipt_backed hrun hkeys hd hrc hrecipient⟩

end

end HermesPayments
