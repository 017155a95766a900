import EpsDapp.Billing.Checkout

/-!
# The subscription catalog

`scripts/stripe-bootstrap.ts` provisions the products, the prices and the coupon of the
subscriptions. It is run by hand, as often as it takes: it stamps what it creates with a
key, and reuses what it finds under the key. Products are found by a search, whose index
follows the account after a while. As long as the index has caught up when a run begins,
no object is made twice, wherever the runs before were cut off, and once a run has ended
the runs after it change nothing.
-/

set_option autoImplicit false

namespace EpsDapp

open Effect

/-! ## The account -/

/-- A product, with what the script reads of it. -/
structure Product where
  id : String
  name : String
  bootstrapKey : Option String
  defaultPrice : Option String := none
  deriving DecidableEq

/-- A price; `interval` is that of a recurring one. -/
structure Price where
  id : String
  product : String
  currency : String
  unitAmount : Option ℕ
  interval : Option String
  bootstrapKey : Option String
  active : Bool := true
  deriving DecidableEq

structure Coupon where
  id : String
  name : String
  percentOff : ℕ
  durationInMonths : ℕ
  bootstrapKey : Option String
  deriving DecidableEq

/-- The objects of an account, and the products that are not in the search index yet. -/
structure Catalog where
  products : List Product := []
  prices : List Price := []
  coupons : List Coupon := []
  unindexed : List String := []

/-- An entry of `TIERS`. -/
structure CatalogTier where
  key : String
  name : String
  unitAmount : ℕ
  envVar : String

/-- The entry of a tier. -/
def Tier.catalog : Tier → CatalogTier
  | .tier1 => ⟨"eps_tier1", "EPS Tier 1", 20000, "STRIPE_TIER1_PRICE_ID"⟩
  | .tier2 => ⟨"eps_tier2", "EPS Tier 2", 60000, "STRIPE_TIER2_PRICE_ID"⟩
  | .tier3 => ⟨"eps_tier3", "EPS Tier 3", 100000, "STRIPE_TIER3_PRICE_ID"⟩

/-- `TIERS` -/
def tiers : List CatalogTier := [Tier.tier1.catalog, Tier.tier2.catalog, Tier.tier3.catalog]

/-- `COUPON` -/
def earlyAdopter : Coupon where
  id := "EARLYADOPTER50"
  name := "Early Adopter 50% Off"
  percentOff := 50
  durationInMonths := 12
  bootstrapKey := some "eps_earlyadopter50"

/-- `CURRENCY` -/
def catalogCurrency : String := "usd"

/-- The calls of the script. -/
inductive CatalogCall
  /-- `products.search`, for a bootstrap key. -/
  | productsSearch (key : String)
  | productsCreate (name key : String)
  /-- `prices.list`, of the active prices of a product. -/
  | pricesList (product : String)
  | pricesCreate (product : String) (tier : CatalogTier)
  | productsUpdate (id defaultPrice : String)
  | couponsList
  | couponsCreate

/-- What each call answers with. -/
@[reducible] def CatalogCall.Resp : CatalogCall → Type
  | productsSearch _ => Option Product
  | productsCreate _ _ => Product
  | pricesList _ => List Price
  | pricesCreate _ _ => Price
  | productsUpdate _ _ => Unit
  | couponsList => List Coupon
  | couponsCreate => Unit

abbrev catalogSig : Signature := ⟨CatalogCall, CatalogCall.Resp⟩

abbrev CatalogProgram := Program catalogSig Failure

namespace CatalogProgram

def productsSearch (key : String) : CatalogProgram (Option Product) :=
  Program.perform (S := catalogSig) (.productsSearch key)

def productsCreate (name key : String) : CatalogProgram Product :=
  Program.perform (S := catalogSig) (.productsCreate name key)

def pricesList (product : String) : CatalogProgram (List Price) :=
  Program.perform (S := catalogSig) (.pricesList product)

def pricesCreate (product : String) (tier : CatalogTier) : CatalogProgram Price :=
  Program.perform (S := catalogSig) (.pricesCreate product tier)

def productsUpdate (id defaultPrice : String) : CatalogProgram Unit :=
  Program.perform (S := catalogSig) (.productsUpdate id defaultPrice)

def couponsList : CatalogProgram (List Coupon) :=
  Program.perform (S := catalogSig) .couponsList

def couponsCreate : CatalogProgram Unit :=
  Program.perform (S := catalogSig) .couponsCreate

end CatalogProgram

/-! ## The script -/

open CatalogProgram

/-- The price that `prices.create` makes of a tier. -/
def CatalogTier.price (tier : CatalogTier) (id product : String) : Price where
  id := id
  product := product
  currency := catalogCurrency
  unitAmount := some tier.unitAmount
  interval := some "month"
  bootstrapKey := some tier.key

/-- What `findPriceByKey` looks for among the active prices of a product. -/
def Price.isOf (price : Price) (tier : CatalogTier) : Bool :=
  price.bootstrapKey == some tier.key && price.unitAmount == some tier.unitAmount &&
    price.currency == catalogCurrency && price.interval == some "month"

/-- `findProductByKey` -/
def findProductByKey (key : String) : CatalogProgram (Option Product) := productsSearch key

/-- `findPriceByKey` -/
def findPriceByKey (product : String) (tier : CatalogTier) : CatalogProgram (Option Price) := do
  let prices ← pricesList product
  pure (prices.find? (Price.isOf · tier))

/-- `findCouponByKey`, for the key of the coupon. -/
def findCouponByKey : CatalogProgram (Option Coupon) := do
  let coupons ← couponsList
  pure (coupons.find? fun coupon => coupon.bootstrapKey == earlyAdopter.bootstrapKey)

/-- The product of a tier, created if there is none. -/
def reuseProduct (tier : CatalogTier) : CatalogProgram Product := do
  match ← findProductByKey tier.key with
  | some product => pure product
  | none => productsCreate tier.name tier.key

/-- The price of a tier, created if its product has none. -/
def reusePrice (product : String) (tier : CatalogTier) : CatalogProgram Price := do
  match ← findPriceByKey product tier with
  | some price => pure price
  | none => pricesCreate product tier

/-- `upsertTier` -/
def upsertTier (tier : CatalogTier) : CatalogProgram String := do
  let product ← reuseProduct tier
  let price ← reusePrice product.id tier
  if product.defaultPrice = some price.id then pure price.id
  else do
    productsUpdate product.id price.id
    pure price.id

/-- `upsertCoupon` -/
def upsertCoupon : CatalogProgram Unit := do
  match ← findCouponByKey with
  | some _ => pure ()
  | none => couponsCreate

/-- The loop over the tiers: each variable with its price. -/
def upsertTiers : List CatalogTier → CatalogProgram (List (String × String))
  | [] => pure []
  | tier :: tiers => do
      let priceId ← upsertTier tier
      let priceIds ← upsertTiers tiers
      pure ((tier.envVar, priceId) :: priceIds)

/-- `assertTestMode` -/
def assertTestMode (key : String) : Except Failure Unit :=
  if key = "" then
    .error (.error "STRIPE_SECRET_KEY is not set. Use a test-mode key (sk_test_...).")
  else if LiveMode key then
    .error (.error ("Refusing to run against a LIVE Stripe key. EPS bootstrap is test-mode " ++
      "only (CLAUDE.md hard rule #7)."))
  else .ok ()

/-- `main`, which prints the variables with their prices. -/
def bootstrap (secretKey : String) : CatalogProgram (List (String × String)) :=
  match assertTestMode secretKey with
  | .error e => throw e
  | .ok () => do
      let priceIds ← upsertTiers tiers
      upsertCoupon
      pure priceIds

/-! ## What Stripe answers -/

namespace Catalog

def addProduct (s : Catalog) (product : Product) : Catalog :=
  { s with products := s.products ++ [product], unindexed := s.unindexed ++ [product.id] }

def addPrice (s : Catalog) (price : Price) : Catalog := { s with prices := s.prices ++ [price] }

def addCoupon (s : Catalog) (coupon : Coupon) : Catalog :=
  { s with coupons := s.coupons ++ [coupon] }

def setDefaultPrice (s : Catalog) (id price : String) : Catalog :=
  { s with
    products := s.products.map fun p => if p.id = id then { p with defaultPrice := some price }
      else p }

/-- The active prices of a product. -/
def activePrices (s : Catalog) (product : String) : List Price :=
  s.prices.filter fun price => price.product == product && price.active

end Catalog

/-- A write takes effect, or it does not, and then it is answered with an error; the answer may
be lost on the way back too. -/
def Writes {α : Type} (s s' written : Catalog) (a : α) (r : Except Failure α) : Prop :=
  (s' = written ∧ (r = .ok a ∨ ∃ e, r = .error e)) ∨ (s' = s ∧ ∃ e, r = .error e)

/-- What each call does to the account and answers. Ids are new and not empty; a search finds
any product in the index, and may find one that is not in it yet. -/
def CatalogCall.Exec (s : Catalog) : (c : CatalogCall) → Catalog → Except Failure c.Resp → Prop
  | productsSearch key, s', r => s' = s ∧
      ((∃ e, r = .error e) ∨
        (∃ p ∈ s.products, p.bootstrapKey = some key ∧ r = .ok (some p)) ∨
        (r = .ok none ∧ ∀ p ∈ s.products, p.bootstrapKey = some key → p.id ∈ s.unindexed))
  | productsCreate name key, s', r => ∃ id, (∀ p ∈ s.products, p.id ≠ id) ∧
      Writes s s' (s.addProduct ⟨id, name, some key, none⟩) ⟨id, name, some key, none⟩ r
  | pricesList product, s', r => s' = s ∧
      ((∃ e, r = .error e) ∨ ∃ list, list.Perm (s.activePrices product) ∧ r = .ok list)
  | pricesCreate product tier, s', r => ∃ id ≠ "", (∀ p ∈ s.prices, p.id ≠ id) ∧
      Writes s s' (s.addPrice (tier.price id product)) (tier.price id product) r
  | productsUpdate id price, s', r => Writes s s' (s.setDefaultPrice id price) () r
  | couponsList, s', r => s' = s ∧
      ((∃ e, r = .error e) ∨ ∃ list, list.Perm s.coupons ∧ r = .ok list)
  | couponsCreate, s', r =>
      ((∀ c ∈ s.coupons, c.id ≠ earlyAdopter.id) ∧ Writes s s' (s.addCoupon earlyAdopter) () r) ∨
        (s' = s ∧ ∃ e, r = .error e)

def catalogAnswers : Answers catalogSig Failure Catalog := CatalogCall.Exec

/-! ## What the runs keep -/

namespace Catalog

/-- No object is there twice. -/
structure Tidy (s : Catalog) : Prop where
  productIds : (s.products.map Product.id).Nodup
  priceIds : (s.prices.map Price.id).Nodup
  products : ∀ p ∈ s.products, ∀ q ∈ s.products, p.bootstrapKey = q.bootstrapKey →
    p.bootstrapKey ≠ none → p = q
  prices : ∀ p ∈ s.prices, ∀ q ∈ s.prices, p.active = true → q.active = true →
    p.product = q.product → ∀ tier, p.isOf tier = true → q.isOf tier = true → p = q
  coupons : ∀ c ∈ s.coupons, ∀ d ∈ s.coupons, c.bootstrapKey = earlyAdopter.bootstrapKey →
    d.bootstrapKey = earlyAdopter.bootstrapKey → c = d
  named : ∀ p ∈ s.prices, p.id ≠ ""

/-- The account is tidy, and what is not in the index has one of the keys. -/
structure Ready (keys : List String) (s : Catalog) : Prop where
  tidy : s.Tidy
  unindexed : ∀ p ∈ s.products, p.id ∈ s.unindexed → ∃ key ∈ keys, p.bootstrapKey = some key

/-- The account has a tier: its product, whose default price is the active price of the tier. -/
def Provides (s : Catalog) (tier : CatalogTier) (priceId : String) : Prop :=
  ∃ product ∈ s.products, product.bootstrapKey = some tier.key ∧
    product.defaultPrice = some priceId ∧
    ∃ price ∈ s.activePrices product.id, price.isOf tier = true ∧ price.id = priceId

/-- The account has the coupon. -/
def HasCoupon (s : Catalog) : Prop :=
  ∃ coupon ∈ s.coupons, coupon.bootstrapKey = earlyAdopter.bootstrapKey

/-- Objects are added, and the product with the key may be given another price. -/
structure Extends (key : String) (s s' : Catalog) : Prop where
  products : ∀ p ∈ s.products, p.bootstrapKey ≠ some key → p ∈ s'.products
  prices : s.prices ⊆ s'.prices

variable {s s' s'' : Catalog} {key : String} {keys : List String} {tier : CatalogTier}

theorem Extends.refl (key : String) (s : Catalog) : Extends key s s :=
  ⟨fun _ h _ => h, List.Subset.refl _⟩

theorem Extends.trans (h : Extends key s s') (h' : Extends key s' s'') : Extends key s s'' where
  products p hp hne := h'.products p (h.products p hp hne) hne
  prices := List.Subset.trans h.prices h'.prices

theorem Extends.activePrices (h : Extends key s s') {product : String} {price : Price}
    (hprice : price ∈ s.activePrices product) : price ∈ s'.activePrices product := by
  obtain ⟨hmem, hactive⟩ := List.mem_filter.1 hprice
  exact List.mem_filter.2 ⟨h.prices hmem, hactive⟩

/-- The other tiers stay. -/
theorem Provides.extends {priceId : String} (h : s.Provides tier priceId)
    (hext : Extends key s s') (hne : tier.key ≠ key) : s'.Provides tier priceId := by
  obtain ⟨product, hproduct, hkey, hdefault, price, hprice, hrest⟩ := h
  refine ⟨product, hext.products product hproduct ?_, hkey, hdefault, price,
    hext.activePrices hprice, hrest⟩
  rw [hkey]
  exact fun heq => hne (Option.some.inj heq)

/-! ### The writes -/

theorem Ready.mono {keys' : List String} (h : s.Ready keys) (hsub : keys ⊆ keys') :
    s.Ready keys' where
  tidy := h.tidy
  unindexed p hp hid := by
    obtain ⟨key, hkey, heq⟩ := h.unindexed p hp hid
    exact ⟨key, hsub hkey, heq⟩

theorem eq_of_mem_append_singleton {α : Type} {P : α → α → Prop} {l : List α} {a : α}
    (hl : ∀ p ∈ l, ∀ q ∈ l, P p q → p = q) (ha : ∀ p ∈ l, ¬ P p a ∧ ¬ P a p) :
    ∀ p ∈ l ++ [a], ∀ q ∈ l ++ [a], P p q → p = q := by
  simp only [List.mem_append, List.mem_singleton]
  rintro p (hp | rfl) q (hq | rfl) h
  · exact hl p hp q hq h
  · exact absurd h (ha p hp).1
  · exact absurd h (ha q hq).2
  · rfl

theorem nodup_map_append_singleton {α β : Type} {f : α → β} {l : List α} {a : α}
    (hl : (l.map f).Nodup) (ha : ∀ p ∈ l, f p ≠ f a) : ((l ++ [a]).map f).Nodup := by
  rw [List.map_append, List.map_singleton, List.nodup_append]
  refine ⟨hl, List.nodup_singleton _, fun b hb c hc => ?_⟩
  obtain ⟨p, hp, rfl⟩ := List.mem_map.1 hb
  obtain rfl := List.mem_singleton.1 hc
  exact ha p hp

/-- A product with a new key is added. -/
theorem Ready.addProduct (h : s.Ready keys) {id name : String}
    (hid : ∀ p ∈ s.products, p.id ≠ id)
    (hkey : ∀ p ∈ s.products, p.bootstrapKey ≠ some key) :
    (s.addProduct ⟨id, name, some key, none⟩).Ready (key :: keys) where
  tidy :=
    { h.tidy with
      productIds := nodup_map_append_singleton h.tidy.productIds hid
      products := fun p hp q hq heq hne => by
        refine eq_of_mem_append_singleton
          (P := fun p q : Product => p.bootstrapKey = q.bootstrapKey ∧ p.bootstrapKey ≠ none)
          (fun p hp q hq h' => h.tidy.products p hp q hq h'.1 h'.2) (fun p hp => ?_) p hp q hq
          ⟨heq, hne⟩
        exact ⟨fun h' => hkey p hp h'.1, fun h' => hkey p hp h'.1.symm⟩ }
  unindexed p hp hmem := by
    rcases List.mem_append.1 hp with hold | hnew
    · rcases List.mem_append.1 hmem with hmem | hmem
      · obtain ⟨k, hk, heq⟩ := h.unindexed p hold hmem
        exact ⟨k, List.mem_cons_of_mem _ hk, heq⟩
      · exact absurd (List.mem_singleton.1 hmem) (hid p hold)
    · obtain rfl := List.mem_singleton.1 hnew
      exact ⟨key, List.mem_cons_self, rfl⟩

theorem extends_addProduct (product : Product) : Extends key s (s.addProduct product) where
  products _ hp _ := List.mem_append_left _ hp
  prices := List.Subset.refl _

theorem isOf_congr {other : CatalogTier} (hkey : tier.key = other.key)
    (hamount : tier.unitAmount = other.unitAmount) (price : Price) :
    price.isOf tier = price.isOf other := by
  rw [Price.isOf, hkey, hamount, Price.isOf]

theorem isOf_price {other : CatalogTier} (id product : String) :
    (tier.price id product).isOf other = true ↔
      tier.key = other.key ∧ tier.unitAmount = other.unitAmount := by
  simp [Price.isOf, CatalogTier.price]

/-- A price that its product has not is added. -/
theorem Ready.addPrice (h : s.Ready keys) {id product : String} (hne : id ≠ "")
    (hid : ∀ p ∈ s.prices, p.id ≠ id)
    (hnone : ∀ p ∈ s.activePrices product, p.isOf tier = false) :
    (s.addPrice (tier.price id product)).Ready keys where
  tidy :=
    { h.tidy with
      priceIds := nodup_map_append_singleton h.tidy.priceIds hid
      prices := fun p hp q hq hactive hactive' hproduct other hof hof' => by
        refine eq_of_mem_append_singleton
          (P := fun p q : Price => p.active = true ∧ q.active = true ∧ p.product = q.product ∧
            p.isOf other = true ∧ q.isOf other = true)
          (fun p hp q hq h' => h.tidy.prices p hp q hq h'.1 h'.2.1 h'.2.2.1 other h'.2.2.2.1
            h'.2.2.2.2) (fun p hp => ?_) p hp q hq ⟨hactive, hactive', hproduct, hof, hof'⟩
        have hother : p.active = true → p.product = product → p.isOf other = true →
            (tier.price id product).isOf other = true → False := by
          intro hactive hproduct hof hnew
          obtain ⟨hkey, hamount⟩ := (isOf_price id product).1 hnew
          have hmem : p ∈ s.activePrices product :=
            List.mem_filter.2 ⟨hp, by simp [hproduct, hactive]⟩
          rw [← isOf_congr hkey hamount, hnone p hmem] at hof
          cases hof
        exact ⟨fun h' => hother h'.1 h'.2.2.1 h'.2.2.2.1 h'.2.2.2.2,
          fun h' => hother h'.2.1 h'.2.2.1.symm h'.2.2.2.2 h'.2.2.2.1⟩
      named := fun p hp => by
        rcases List.mem_append.1 hp with hp | hp
        · exact h.tidy.named p hp
        · obtain rfl := List.mem_singleton.1 hp
          exact hne }
  unindexed := h.unindexed

theorem extends_addPrice (price : Price) : Extends key s (s.addPrice price) where
  products _ hp _ := hp
  prices := List.subset_append_left _ _

theorem map_setDefaultPrice {α : Type} {f : Product → α} (id price : String)
    (hf : ∀ p defaultPrice, f { p with defaultPrice := defaultPrice } = f p) :
    (s.setDefaultPrice id price).products.map f = s.products.map f := by
  rw [setDefaultPrice, List.map_map]
  refine List.map_congr_left fun p _ => ?_
  rw [Function.comp_apply]
  split
  · exact hf p _
  · rfl

/-- A product is given its price. -/
theorem Ready.setDefaultPrice (h : s.Ready keys) (id price : String) :
    (s.setDefaultPrice id price).Ready keys := by
  have hold : ∀ p ∈ (s.setDefaultPrice id price).products, ∃ q ∈ s.products, p.id = q.id ∧
      p.bootstrapKey = q.bootstrapKey ∧ p = if q.id = id then { q with defaultPrice := some price }
        else q := by
    intro p hp
    obtain ⟨q, hq, rfl⟩ := List.mem_map.1 hp
    refine ⟨q, hq, ?_, ?_, rfl⟩
    · split <;> rfl
    · split <;> rfl
  refine ⟨⟨?_, h.tidy.priceIds, fun p hp q hq heq hne => ?_, h.tidy.prices, h.tidy.coupons,
    h.tidy.named⟩, fun p hp hid => ?_⟩
  · rw [map_setDefaultPrice id price fun _ _ => rfl]
    exact h.tidy.productIds
  · obtain ⟨p', hp', -, hkey, rfl⟩ := hold p hp
    obtain ⟨q', hq', -, hkey', rfl⟩ := hold q hq
    rw [hkey] at heq hne
    rw [h.tidy.products p' hp' q' hq' (heq.trans hkey') hne]
  · obtain ⟨q, hq, hsame, hkey, -⟩ := hold p hp
    rw [hsame] at hid
    rw [hkey]
    exact h.unindexed q hq hid

theorem extends_setDefaultPrice (h : s.Tidy) {product : Product} (hproduct : product ∈ s.products)
    (hkey : product.bootstrapKey = some key) (price : String) :
    Extends key s (s.setDefaultPrice product.id price) where
  products p hp hne := by
    have hother : p.id ≠ product.id := by
      intro heq
      rw [List.inj_on_of_nodup_map h.productIds hp hproduct heq] at hne
      exact hne hkey
    exact List.mem_map.2 ⟨p, hp, if_neg hother⟩
  prices := List.Subset.refl _

/-- The coupon is added. -/
theorem Tidy.addCoupon (h : s.Tidy)
    (hnone : ∀ c ∈ s.coupons, c.bootstrapKey ≠ earlyAdopter.bootstrapKey) :
    (s.addCoupon earlyAdopter).Tidy :=
  { h with
    coupons := fun c hc d hd hkey hkey' => by
      refine eq_of_mem_append_singleton
        (P := fun c d : Coupon => c.bootstrapKey = earlyAdopter.bootstrapKey ∧
          d.bootstrapKey = earlyAdopter.bootstrapKey)
        (fun c hc d hd h' => h.coupons c hc d hd h'.1 h'.2) (fun c hc => ?_) c hc d hd
        ⟨hkey, hkey'⟩
      exact ⟨fun h' => hnone c hc h'.1, fun h' => hnone c hc h'.2⟩ }

end Catalog

/-! ## One run -/

theorem Writes.cases {α : Type} {s s' written : Catalog} {a : α} {r : Except Failure α}
    (h : Writes s s' written a r) :
    (s' = written ∧ ∀ b, r = .ok b → b = a) ∨ (s' = s ∧ ∀ b, r ≠ .ok b) := by
  rcases h with ⟨rfl, rfl | ⟨e, rfl⟩⟩ | ⟨rfl, e, rfl⟩
  · exact Or.inl ⟨rfl, fun b hb => (Except.ok.inj hb).symm⟩
  · exact Or.inl ⟨rfl, fun b hb => by cases hb⟩
  · exact Or.inr ⟨rfl, fun b hb => by cases hb⟩

section Run

variable {s : Catalog} {keys : List String} {tier : CatalogTier}

/-- What every point of the step of a tier has. -/
structure TierStep (keys : List String) (tier : CatalogTier) (s w : Catalog) : Prop where
  ready : w.Ready (tier.key :: keys)
  grown : Catalog.Extends tier.key s w

theorem TierStep.trans {w w' : Catalog} (h : TierStep keys tier s w)
    (hready : w'.Ready (tier.key :: keys)) (hext : Catalog.Extends tier.key w w') :
    TierStep keys tier s w' :=
  ⟨hready, h.grown.trans hext⟩

/-- The product of the tier is in the account. -/
def Found (tier : CatalogTier) (w : Catalog) (product : Product) : Prop :=
  product ∈ w.products ∧ product.bootstrapKey = some tier.key

theorem wp_reuseProduct (h : s.Ready keys) (hkey : tier.key ∉ keys) :
    (reuseProduct tier).wp catalogAnswers (fun w _ => TierStep keys tier s w)
      (fun r w =>
        TierStep keys tier s w ∧ ∀ product, r = .ok product → Found tier w product) s := by
  have hstart : TierStep keys tier s s := ⟨h.mono (List.subset_cons_self _ _), .refl _ _⟩
  refine ⟨hstart, fun w r hanswer => ?_⟩
  obtain ⟨rfl, ⟨e, rfl⟩ | ⟨product, hmem, hproduct, rfl⟩ | ⟨rfl, hnone⟩⟩ := hanswer
  · exact ⟨hstart, fun product hok => by cases hok⟩
  · refine ⟨hstart, fun found hok => ?_⟩
    obtain rfl := Except.ok.inj hok
    exact ⟨hmem, hproduct⟩
  · refine ⟨hstart, fun w' r hanswer => ?_⟩
    obtain ⟨id, hid, hwrites⟩ := hanswer
    have hnew : ∀ p ∈ w.products, p.bootstrapKey ≠ some tier.key := by
      intro p hp heq
      obtain ⟨k, hk, hpk⟩ := h.unindexed p hp (hnone p hp heq)
      rw [heq] at hpk
      exact hkey (Option.some.inj hpk ▸ hk)
    rcases hwrites.cases with ⟨rfl, hok⟩ | ⟨rfl, herror⟩
    · refine ⟨hstart.trans (h.addProduct hid hnew) (Catalog.extends_addProduct _),
        fun product hproduct => ?_⟩
      rw [hok product hproduct]
      exact ⟨List.mem_append_right _ (List.mem_singleton_self _), rfl⟩
    · exact ⟨hstart, fun product hproduct => absurd hproduct (herror product)⟩

/-- The price is an active one of the tier. -/
def Priced (tier : CatalogTier) (product : String) (w : Catalog) (price : Price) : Prop :=
  price ∈ w.activePrices product ∧ price.isOf tier = true

theorem isOf_price_self (id product : String) : (tier.price id product).isOf tier = true :=
  (Catalog.isOf_price id product).2 ⟨rfl, rfl⟩

theorem wp_reusePrice {w : Catalog} (h : TierStep keys tier s w) {product : Product}
    (hproduct : Found tier w product) :
    (reusePrice product.id tier).wp catalogAnswers (fun w _ => TierStep keys tier s w)
      (fun r w => TierStep keys tier s w ∧ Found tier w product ∧
        ∀ price, r = .ok price → Priced tier product.id w price) w := by
  refine ⟨h, fun w' r hanswer => ?_⟩
  obtain ⟨rfl, ⟨e, rfl⟩ | ⟨list, hlist, rfl⟩⟩ := hanswer
  · exact ⟨h, hproduct, fun price hok => by cases hok⟩
  · change (match list.find? (Price.isOf · tier) with
      | some price => pure price
      | none => CatalogProgram.pricesCreate product.id tier : CatalogProgram Price).wp _ _ _ _
    cases hfind : list.find? (Price.isOf · tier) with
    | some price =>
        refine ⟨h, hproduct, fun found hok => ?_⟩
        obtain rfl := Except.ok.inj hok
        have hof := List.find?_some hfind
        exact ⟨hlist.subset (List.mem_of_find?_eq_some hfind), hof⟩
    | none =>
        refine ⟨h, fun w'' r hanswer => ?_⟩
        obtain ⟨id, hne, hid, hwrites⟩ := hanswer
        have hnone : ∀ p ∈ w'.activePrices product.id, p.isOf tier = false := fun p hp =>
          Bool.eq_false_iff.2 (List.find?_eq_none.1 hfind p (hlist.symm.subset hp))
        rcases hwrites.cases with ⟨rfl, hok⟩ | ⟨rfl, herror⟩
        · refine ⟨h.trans (h.ready.addPrice hne hid hnone) (Catalog.extends_addPrice _),
            hproduct, fun price hprice => ?_⟩
          rw [hok price hprice]
          exact ⟨List.mem_filter.2 ⟨List.mem_append_right _ (List.mem_singleton_self _),
            by simp [CatalogTier.price]⟩, isOf_price_self id product.id⟩
        · exact ⟨h, hproduct, fun price hprice => absurd hprice (herror price)⟩

theorem provides_setDefaultPrice {w : Catalog} {product : Product} {price : Price}
    (hproduct : Found tier w product) (hprice : Priced tier product.id w price) :
    (w.setDefaultPrice product.id price.id).Provides tier price.id :=
  ⟨{ product with defaultPrice := some price.id },
    List.mem_map.2
      ⟨product, hproduct.1, if_pos rfl⟩, hproduct.2, rfl, price, hprice.1, hprice.2, rfl⟩

/-- The step of a tier leaves the tier in the account, if it returns. -/
theorem wp_upsertTier (h : s.Ready keys) (hkey : tier.key ∉ keys) :
    (upsertTier tier).wp catalogAnswers (fun w _ => TierStep keys tier s w)
      (fun r w => TierStep keys tier s w ∧ ∀ id, r = .ok id → w.Provides tier id) s := by
  refine Program.wp_seq (wp_reuseProduct h hkey) (fun product w hw => ?_)
    fun e w he => ⟨he.1, fun id hok => by cases hok⟩
  obtain ⟨hstep, hfound⟩ := hw
  refine Program.wp_seq (wp_reusePrice hstep (hfound product rfl)) (fun price w hw => ?_)
    fun e w he => ⟨he.1, fun id hok => by cases hok⟩
  obtain ⟨hstep, hproduct, hpriced⟩ := hw
  have hprice := hpriced price rfl
  by_cases hdefault : product.defaultPrice = some price.id
  · rw [if_pos hdefault]
    refine ⟨hstep, fun id hok => ?_⟩
    obtain rfl := Except.ok.inj hok
    exact ⟨product, hproduct.1, hproduct.2, hdefault, price, hprice.1, hprice.2, rfl⟩
  · rw [if_neg hdefault]
    refine ⟨hstep, fun w' r hanswer => ?_⟩
    have hset : TierStep keys tier s (w.setDefaultPrice product.id price.id) :=
      hstep.trans (hstep.ready.setDefaultPrice _ _)
        (Catalog.extends_setDefaultPrice hstep.ready.tidy hproduct.1 hproduct.2 _)
    rcases hanswer with ⟨rfl, rfl | ⟨e, rfl⟩⟩ | ⟨rfl, e, rfl⟩
    · refine ⟨hset, fun id hok => ?_⟩
      obtain rfl := Except.ok.inj hok
      exact provides_setDefaultPrice hproduct hprice
    · exact ⟨hset, fun id hok => by cases hok⟩
    · exact ⟨hstep, fun id hok => by cases hok⟩

/-- What has been printed of the tiers. -/
def Printed (w : Catalog) (tiers : List CatalogTier) (printed : List (String × String)) : Prop :=
  List.Forall₂ (fun tier p => p.1 = tier.envVar ∧ w.Provides tier p.2) tiers printed

/-- The account has everything, and this has been printed of it. -/
structure Provisioned (w : Catalog) (printed : List (String × String)) : Prop where
  tiers : Printed w tiers printed
  coupon : w.HasCoupon

theorem Printed.mono {w w' : Catalog} {ts : List CatalogTier} {printed : List (String × String)}
    (h : Printed w ts printed) (hw : ∀ t ∈ ts, ∀ id, w.Provides t id → w'.Provides t id) :
    Printed w' ts printed := by
  induction h with
  | nil => exact .nil
  | cons hhead _ ih =>
      exact .cons ⟨hhead.1, hw _ List.mem_cons_self _ hhead.2⟩
        (ih fun t ht => hw t (List.mem_cons_of_mem _ ht))

theorem wp_upsertTiers {ts : List CatalogTier} (h : s.Ready keys)
    (hnodup : (ts.map CatalogTier.key).Nodup) (hkeys : ∀ t ∈ ts, t.key ∉ keys) :
    (upsertTiers ts).wp catalogAnswers (fun w _ => w.Tidy)
      (fun r w => w.Tidy ∧
        (∀ t id, t.key ∉ ts.map CatalogTier.key → s.Provides t id → w.Provides t id) ∧
        ∀ printed, r = .ok printed → Printed w ts printed) s := by
  induction ts generalizing s keys with
  | nil =>
      refine ⟨h.tidy, fun _ _ _ hprovides => hprovides, fun printed hok => ?_⟩
      rw [← Except.ok.inj hok]
      exact .nil
  | cons tier ts ih =>
      obtain ⟨hfresh, hnodup⟩ := List.nodup_cons.1 hnodup
      obtain ⟨hkey, hkeys⟩ := List.forall_mem_cons.1 hkeys
      have hkeep : ∀ {w : Catalog}, TierStep keys tier s w → ∀ t id,
          t.key ∉ (tier :: ts).map CatalogTier.key → s.Provides t id → w.Provides t id :=
        fun hstep t id ht hprovides =>
          hprovides.extends hstep.grown fun heq => ht (heq ▸ List.mem_cons_self)
      refine Program.wp_seq (Program.wp_mono _ (fun _ _ _ _ h => h) (fun _ _ hstep =>
        hstep.ready.tidy) (fun _ _ h => h) (wp_upsertTier h hkey)) (fun id w hw => ?_)
        fun e w he => ⟨he.1.ready.tidy, hkeep he.1, fun printed hok => by cases hok⟩
      obtain ⟨hstep, hprovides⟩ := hw
      have hrest := ih hstep.ready hnodup fun t ht hmem => by
        rcases List.mem_cons.1 hmem with heq | hmem
        · exact hfresh (heq ▸ List.mem_map_of_mem ht)
        · exact hkeys t ht hmem
      have hkept : ∀ {w' : Catalog}, (∀ t id, t.key ∉ ts.map CatalogTier.key →
          w.Provides t id → w'.Provides t id) → ∀ t id,
            t.key ∉ (tier :: ts).map CatalogTier.key → s.Provides t id → w'.Provides t id :=
        fun hw' t id ht hprovides =>
          hw' t id (fun hmem => ht (List.mem_cons_of_mem _ hmem)) (hkeep hstep t id ht hprovides)
      refine Program.wp_seq hrest (fun printed w' hw' => ?_)
        fun e w' he => ⟨he.1, hkept he.2.1, fun printed hok => by cases hok⟩
      refine ⟨hw'.1, hkept hw'.2.1, fun all hok => ?_⟩
      rw [← Except.ok.inj hok]
      exact .cons ⟨rfl, hw'.2.1 tier id hfresh (hprovides id rfl)⟩ (hw'.2.2 printed rfl)

theorem wp_upsertCoupon (h : s.Tidy) :
    upsertCoupon.wp catalogAnswers (fun w _ => w.Tidy)
      (fun r w => w.Tidy ∧ (∀ t id, s.Provides t id → w.Provides t id) ∧
        (r = .ok () → w.HasCoupon)) s := by
  have hsame : ∀ t id, s.Provides t id → s.Provides t id := fun _ _ h => h
  refine ⟨h, fun w r hanswer => ?_⟩
  obtain ⟨rfl, ⟨e, rfl⟩ | ⟨list, hlist, rfl⟩⟩ := hanswer
  · exact ⟨h, hsame, fun hok => by cases hok⟩
  · change (match list.find? fun coupon => coupon.bootstrapKey == earlyAdopter.bootstrapKey with
      | some _ => pure ()
      | none => CatalogProgram.couponsCreate : CatalogProgram Unit).wp _ _ _ _
    cases hfind : list.find? fun coupon => coupon.bootstrapKey == earlyAdopter.bootstrapKey with
    | some coupon =>
        have hkey := List.find?_some hfind
        exact ⟨h, hsame, fun _ => ⟨coupon, hlist.subset (List.mem_of_find?_eq_some hfind),
          beq_iff_eq.1 hkey⟩⟩
    | none =>
        refine ⟨h, fun w' r hanswer => ?_⟩
        rcases hanswer with ⟨-, hwrites⟩ | ⟨rfl, e, rfl⟩
        · have hnone : ∀ c ∈ w.coupons, c.bootstrapKey ≠ earlyAdopter.bootstrapKey :=
            fun c hc heq => List.find?_eq_none.1 hfind c (hlist.symm.subset hc) (beq_iff_eq.2 heq)
          rcases hwrites.cases with ⟨rfl, -⟩ | ⟨rfl, herror⟩
          · exact ⟨h.addCoupon hnone, fun _ _ hprovides => hprovides, fun _ =>
              ⟨earlyAdopter, List.mem_append_right _ (List.mem_singleton_self _), rfl⟩⟩
          · exact ⟨h, hsame, fun hok => absurd hok (herror ())⟩
        · exact ⟨h, hsame, fun hok => by cases hok⟩

/-- A run that begins with a complete index keeps the account tidy, and leaves it with what it
prints, if it returns. -/
theorem wp_bootstrap (h : s.Tidy) (hindexed : s.unindexed = []) (secretKey : String) :
    (bootstrap secretKey).wp catalogAnswers (fun w _ => w.Tidy)
      (fun r w => w.Tidy ∧ ∀ printed, r = .ok printed → Provisioned w printed) s := by
  have hready : s.Ready [] := ⟨h, fun p _ hid => by rw [hindexed] at hid; cases hid⟩
  rw [bootstrap]
  cases assertTestMode secretKey with
  | error e => exact ⟨h, fun printed hok => by cases hok⟩
  | ok _ =>
      refine Program.wp_seq (wp_upsertTiers hready (by decide) fun _ _ => List.not_mem_nil)
        (fun printed w hw => ?_) fun e w he => ⟨he.1, fun printed hok => by cases hok⟩
      refine Program.wp_seq (wp_upsertCoupon hw.1) (fun _ w' hw' => ?_)
        fun e w' he => ⟨he.1, fun printed hok => by cases hok⟩
      refine ⟨hw'.1, fun all hok => ?_⟩
      rw [← Except.ok.inj hok]
      exact ⟨(hw.2.2 printed rfl).mono fun t _ => hw'.2.1 t, hw'.2.2 rfl⟩

/-! ## The runs after it -/

/-- The step of a tier that is there changes nothing. -/
theorem wp_upsertTier_of_provides (h : s.Tidy) (hindexed : s.unindexed = []) {id : String}
    (hprovides : s.Provides tier id) :
    (upsertTier tier).wp catalogAnswers (fun w _ => w = s)
      (fun r w => w = s ∧ ∀ id', r = .ok id' → id' = id) s := by
  obtain ⟨product, hproduct, hkey, hdefault, price, hprice, hof, hid⟩ := hprovides
  have hfound : (reuseProduct tier).wp catalogAnswers (fun w _ => w = s)
      (fun r w => w = s ∧ ∀ p, r = .ok p → p = product) s := by
    refine ⟨rfl, fun w r hanswer => ?_⟩
    obtain ⟨rfl, ⟨e, rfl⟩ | ⟨p, hp, hpkey, rfl⟩ | ⟨rfl, hnone⟩⟩ := hanswer
    · exact ⟨rfl, fun p hok => by cases hok⟩
    · refine ⟨rfl, fun q hok => ?_⟩
      rw [← Except.ok.inj hok]
      exact h.products p hp product hproduct (hpkey.trans hkey.symm) (by simp [hpkey])
    · have hmissing := hnone product hproduct hkey
      rw [hindexed] at hmissing
      cases hmissing
  have hpriced : (reusePrice product.id tier).wp catalogAnswers (fun w _ => w = s)
      (fun r w => w = s ∧ ∀ p, r = .ok p → p = price) s := by
    refine ⟨rfl, fun w r hanswer => ?_⟩
    obtain ⟨rfl, ⟨e, rfl⟩ | ⟨list, hlist, rfl⟩⟩ := hanswer
    · exact ⟨rfl, fun p hok => by cases hok⟩
    · change (match list.find? (Price.isOf · tier) with
        | some price => pure price
        | none => CatalogProgram.pricesCreate product.id tier : CatalogProgram Price).wp _ _ _ _
      cases hfind : list.find? (Price.isOf · tier) with
      | some p =>
          refine ⟨rfl, fun q hok => ?_⟩
          rw [← Except.ok.inj hok]
          have hactive : ∀ p ∈ w.activePrices product.id,
              p ∈ w.prices ∧ p.product = product.id ∧ p.active = true :=
            fun p hp => by simpa using List.mem_filter.1 hp
          obtain ⟨hmem, hpproduct, hpactive⟩ :=
            hactive p (hlist.subset (List.mem_of_find?_eq_some hfind))
          obtain ⟨hmem', hproduct', hactive'⟩ := hactive price hprice
          have hpof := List.find?_some hfind
          exact h.prices p hmem price hmem' hpactive hactive' (hpproduct.trans hproduct'.symm)
            tier hpof hof
      | none => exact absurd hof (List.find?_eq_none.1 hfind price (hlist.symm.subset hprice))
  refine Program.wp_seq hfound (fun p w hw => ?_) fun e w he => ⟨he.1, fun id' hok => by cases hok⟩
  obtain ⟨rfl, hp⟩ := hw
  obtain rfl := hp p rfl
  refine Program.wp_seq hpriced (fun q w' hw => ?_) fun e w he =>
    ⟨he.1, fun id' hok => by cases hok⟩
  obtain ⟨rfl, hq⟩ := hw
  obtain rfl := hq q rfl
  rw [hid, if_pos hdefault]
  exact ⟨rfl, fun id' hok => (Except.ok.inj hok).symm⟩

theorem wp_upsertTiers_of_printed (h : s.Tidy) (hindexed : s.unindexed = [])
    {ts : List CatalogTier} {printed : List (String × String)} (hprinted : Printed s ts printed) :
    (upsertTiers ts).wp catalogAnswers (fun w _ => w = s)
      (fun r w => w = s ∧ ∀ printed', r = .ok printed' → printed' = printed) s := by
  induction hprinted with
  | nil => exact ⟨rfl, fun printed' hok => (Except.ok.inj hok).symm⟩
  | @cons t p ts printed hhead _ ih =>
      refine Program.wp_seq (wp_upsertTier_of_provides h hindexed hhead.2) (fun id w hw => ?_)
        fun e w he => ⟨he.1, fun printed' hok => by cases hok⟩
      obtain ⟨rfl, hid⟩ := hw
      refine Program.wp_seq ih (fun rest w' hw => ?_)
        fun e w' he => ⟨he.1, fun printed' hok => by cases hok⟩
      obtain ⟨rfl, hrest⟩ := hw
      refine ⟨rfl, fun printed' hok => ?_⟩
      rw [← Except.ok.inj hok, hid id rfl, hrest rest rfl, ← hhead.1]

theorem wp_upsertCoupon_of_hasCoupon (hcoupon : s.HasCoupon) :
    upsertCoupon.wp catalogAnswers (fun w _ => w = s) (fun _ w => w = s) s := by
  refine ⟨rfl, fun w r hanswer => ?_⟩
  obtain ⟨rfl, ⟨e, rfl⟩ | ⟨list, hlist, rfl⟩⟩ := hanswer
  · rfl
  · change (match list.find? fun coupon => coupon.bootstrapKey == earlyAdopter.bootstrapKey with
      | some _ => pure ()
      | none => CatalogProgram.couponsCreate : CatalogProgram Unit).wp _ _ _ _
    cases hfind : list.find? fun coupon => coupon.bootstrapKey == earlyAdopter.bootstrapKey with
    | some coupon => rfl
    | none =>
        obtain ⟨coupon, hmem, hkey⟩ := hcoupon
        exact absurd (beq_iff_eq.2 hkey)
          (List.find?_eq_none.1 hfind coupon (hlist.symm.subset hmem))

/-- A run over an account that has everything changes nothing, and prints the same. -/
theorem wp_bootstrap_of_provisioned (h : s.Tidy) (hindexed : s.unindexed = [])
    {printed : List (String × String)} (hs : Provisioned s printed) (secretKey : String) :
    (bootstrap secretKey).wp catalogAnswers (fun w _ => w = s)
      (fun r w => w = s ∧ ∀ printed', r = .ok printed' → printed' = printed) s := by
  rw [bootstrap]
  cases assertTestMode secretKey with
  | error e => exact ⟨rfl, fun printed' hok => by cases hok⟩
  | ok _ =>
      refine Program.wp_seq (wp_upsertTiers_of_printed h hindexed hs.tiers) (fun all w hw => ?_)
        fun e w he => ⟨he.1, fun printed' hok => by cases hok⟩
      obtain ⟨rfl, hall⟩ := hw
      refine Program.wp_seq (wp_upsertCoupon_of_hasCoupon hs.coupon) (fun _ w' hw => ?_)
        fun e w' he => ⟨he, fun printed' hok => by cases hok⟩
      subst hw
      refine ⟨rfl, fun printed' hok => ?_⟩
      rw [← Except.ok.inj hok, hall all rfl]

/-! ## An account that has nothing -/

/-- The account with a new tier. -/
def Catalog.sell (s : Catalog) (tier : CatalogTier) (product price : String) : Catalog :=
  ((s.addProduct ⟨product, tier.name, some tier.key, none⟩).addPrice
    (tier.price price product)).setDefaultPrice product price

/-- Where a tier is missing, its step may make it under any new ids. -/
theorem upsertTier_runs {product price : String}
    (hkey : ∀ p ∈ s.products, p.bootstrapKey ≠ some tier.key)
    (hproduct : ∀ p ∈ s.products, p.id ≠ product) (hprices : ∀ p ∈ s.prices, p.product ≠ product)
    (hne : price ≠ "") (hprice : ∀ p ∈ s.prices, p.id ≠ price) :
    (upsertTier tier).Runs catalogAnswers s (s.sell tier product price) (.ok price) := by
  have hsearch : catalogAnswers s (.productsSearch tier.key) s (.ok none) :=
    ⟨rfl, Or.inr (Or.inr ⟨rfl, fun p hp heq => absurd heq (hkey p hp)⟩)⟩
  have hcreate : catalogAnswers s (.productsCreate tier.name tier.key)
      (s.addProduct ⟨product, tier.name, some tier.key, none⟩)
      (.ok ⟨product, tier.name, some tier.key, none⟩) :=
    ⟨product, hproduct, Or.inl ⟨rfl, Or.inl rfl⟩⟩
  have hempty : (s.addProduct ⟨product, tier.name, some tier.key, none⟩).activePrices product =
      [] := List.filter_eq_nil_iff.2 fun p hp => by simp [hprices p hp]
  have hlist : catalogAnswers (s.addProduct ⟨product, tier.name, some tier.key, none⟩)
      (.pricesList product) (s.addProduct ⟨product, tier.name, some tier.key, none⟩) (.ok []) :=
    ⟨rfl, Or.inr ⟨[], by rw [hempty], rfl⟩⟩
  refine .call hsearch <| .call hcreate <| .call hlist ?_
  exact .call ⟨price, hne, hprice, Or.inl ⟨rfl, Or.inl rfl⟩⟩ <|
    .call (Or.inl ⟨rfl, Or.inl rfl⟩) ⟨rfl, rfl⟩

theorem upsertTiers_runs {s' s'' : Catalog} {tier : CatalogTier} {id : String}
    {tiers : List CatalogTier} {printed : List (String × String)}
    (htier : (upsertTier tier).Runs catalogAnswers s s' (.ok id))
    (htiers : (upsertTiers tiers).Runs catalogAnswers s' s'' (.ok printed)) :
    (upsertTiers (tier :: tiers)).Runs catalogAnswers s s'' (.ok ((tier.envVar, id) :: printed)) :=
  (Program.runs_bind _ _ _ _ _).2 <| Or.inl ⟨id, s', htier,
    (Program.runs_bind _ _ _ _ _).2 <| Or.inl ⟨printed, s'', htiers, rfl, rfl⟩⟩

end Run

/-! ## All runs -/

/-- The script is run, up to some point, when the index is complete; or the index becomes
complete. -/
inductive CatalogStep :
    Catalog → Option (Program.Halt catalogSig Failure (List (String × String))) → Catalog → Prop
  | run {s s' : Catalog} {secretKey : String}
      {point : Program.Halt catalogSig Failure (List (String × String))}
      (hindexed : s.unindexed = [])
      (hrun : (bootstrap secretKey).HaltsAt catalogAnswers s s' point) :
      CatalogStep s (some point) s'
  | index {s : Catalog} : CatalogStep s none { s with unindexed := [] }

section Runs

variable {s s' : Catalog}

theorem Catalog.Tidy.unindexed (h : s.Tidy) (ids : List String) :
    Catalog.Tidy { s with unindexed := ids } :=
  ⟨h.productIds, h.priceIds, h.products, h.prices, h.coupons, h.named⟩

theorem Catalog.Tidy.step {l : Option (Program.Halt catalogSig Failure (List (String × String)))}
    (h : s.Tidy) (hstep : CatalogStep s l s') : s'.Tidy := by
  cases hstep with
  | @run _ secretKey _ hindexed hrun =>
      refine Program.wp_haltsAt (P := fun w _ => w.Tidy) (bootstrap secretKey) ?_ hrun
      exact Program.wp_post _ (fun _ _ hw => hw.1) (wp_bootstrap h hindexed secretKey)
  | index => exact h.unindexed []

/-- The objects stay as they are. -/
def SameObjects (s s' : Catalog) : Prop := ∃ ids, s' = { s with unindexed := ids }

theorem Provisioned.sameObjects {printed : List (String × String)} (h : Provisioned s printed)
    (hsame : SameObjects s s') : Provisioned s' printed := by
  obtain ⟨ids, rfl⟩ := hsame
  exact ⟨h.tiers.mono fun _ _ _ hprovides => hprovides, h.coupon⟩

theorem sameObjects_of_reaches (h : s.Tidy) {printed : List (String × String)}
    (hs : Provisioned s printed) (hreach : Reaches CatalogStep s s') : SameObjects s s' := by
  refine hreach.invariant (fun t l t' ht hstep => ?_) ⟨s.unindexed, rfl⟩
  obtain ⟨ids, rfl⟩ := ht
  cases hstep with
  | @run _ secretKey _ hindexed hrun =>
      refine ⟨ids, Program.wp_haltsAt (P := fun w _ => w = { s with unindexed := ids })
        (bootstrap secretKey) ?_ hrun⟩
      exact Program.wp_post _ (fun _ _ hw => hw.1) (wp_bootstrap_of_provisioned
        (h.unindexed ids) hindexed (hs.sameObjects ⟨ids, rfl⟩) secretKey)
  | index => exact ⟨[], rfl⟩

/-- However often the script is run, and wherever each run is cut off or a call of it fails or
loses its answer, as long as the index is complete when a run begins: no object is there
twice. A run that returns leaves the account with every tier, the prices that it prints, and
the coupon; and the runs after it change no object, and print the same. -/
theorem bootstrap_idempotent {s₀ : Catalog} (hs₀ : s₀.Tidy) (hs : Reaches CatalogStep s₀ s) :
    s.Tidy ∧ ∀ secretKey s' printed, s.unindexed = [] →
      (bootstrap secretKey).Runs catalogAnswers s s' (.ok printed) →
        Provisioned s' printed ∧ ∀ s'', Reaches CatalogStep s' s'' → SameObjects s' s'' ∧
          ∀ secretKey' t printed', s''.unindexed = [] →
            (bootstrap secretKey').Runs catalogAnswers s'' t (.ok printed') →
              printed' = printed := by
  have htidy : s.Tidy := hs.invariant (fun _ _ _ h hstep => h.step hstep) hs₀
  refine ⟨htidy, fun secretKey s' printed hindexed hrun => ?_⟩
  obtain ⟨htidy', hprinted⟩ := Program.wp_runs _ (wp_bootstrap htidy hindexed secretKey) hrun
  have hs' := hprinted printed rfl
  refine ⟨hs', fun s'' hreach => ?_⟩
  have hsame := sameObjects_of_reaches htidy' hs' hreach
  refine ⟨hsame, fun secretKey' t printed' hindexed' hrun' => ?_⟩
  have htidy'' : s''.Tidy := hreach.invariant (fun _ _ _ h hstep => h.step hstep) htidy'
  exact (Program.wp_runs _ (wp_bootstrap_of_provisioned htidy'' hindexed' (hs'.sameObjects hsame)
    secretKey') hrun').2 printed' rfl

end Runs

/-! ## The first run -/

/-- What the script makes of an empty account. -/
def firstTier : Catalog := ({} : Catalog).sell Tier.tier1.catalog "prod_1" "price_1"

def firstTwo : Catalog := firstTier.sell Tier.tier2.catalog "prod_2" "price_2"

def firstCatalog : Catalog :=
  (firstTwo.sell Tier.tier3.catalog "prod_3" "price_3").addCoupon earlyAdopter

def firstPrices : List (String × String) :=
  [("STRIPE_TIER1_PRICE_ID", "price_1"), ("STRIPE_TIER2_PRICE_ID", "price_2"),
    ("STRIPE_TIER3_PRICE_ID", "price_3")]

theorem tidy_empty : Catalog.Tidy {} where
  productIds := List.nodup_nil
  priceIds := List.nodup_nil
  products _ hp := by cases hp
  prices _ hp := by cases hp
  coupons _ hc := by cases hc
  named _ hp := by cases hp

theorem first_runs :
    (bootstrap "sk_test_1").Runs catalogAnswers {} firstCatalog (.ok firstPrices) := by
  have hmode : assertTestMode "sk_test_1" = .ok () := by decide
  have htier : (upsertTier Tier.tier1.catalog).Runs catalogAnswers {} firstTier (.ok "price_1") :=
    upsertTier_runs (by simp) (by simp) (by simp) (by decide) (by simp)
  have htier2 : (upsertTier Tier.tier2.catalog).Runs catalogAnswers firstTier firstTwo
      (.ok "price_2") :=
    upsertTier_runs (by decide) (by decide) (by decide) (by decide) (by decide)
  have htier3 : (upsertTier Tier.tier3.catalog).Runs catalogAnswers firstTwo
      (firstTwo.sell Tier.tier3.catalog "prod_3" "price_3") (.ok "price_3") :=
    upsertTier_runs (by decide) (by decide) (by decide) (by decide) (by decide)
  have hlist : catalogAnswers (firstTwo.sell Tier.tier3.catalog "prod_3" "price_3") .couponsList
      (firstTwo.sell Tier.tier3.catalog "prod_3" "price_3") (.ok []) :=
    ⟨rfl, Or.inr ⟨[], .refl _, rfl⟩⟩
  have hcreate : catalogAnswers (firstTwo.sell Tier.tier3.catalog "prod_3" "price_3")
      .couponsCreate firstCatalog (.ok ()) :=
    Or.inl ⟨fun c hc => (by cases hc), Or.inl ⟨rfl, Or.inl rfl⟩⟩
  rw [bootstrap, hmode]
  refine (Program.runs_bind _ _ _ _ _).2 (Or.inl ⟨firstPrices, _,
    upsertTiers_runs htier (upsertTiers_runs htier2 (upsertTiers_runs htier3 ⟨rfl, rfl⟩)), ?_⟩)
  exact .call hlist <| .call hcreate ⟨rfl, rfl⟩

theorem bootstrap_idempotent_of_first : Catalog.Tidy {} ∧
    (Provisioned firstCatalog firstPrices ∧ ∀ s, Reaches CatalogStep firstCatalog s →
      SameObjects firstCatalog s ∧ ∀ secretKey t printed, s.unindexed = [] →
        (bootstrap secretKey).Runs catalogAnswers s t (.ok printed) → printed = firstPrices) :=
  have h := bootstrap_idempotent tidy_empty (Reaches.refl _ _)
  ⟨h.1, h.2 "sk_test_1" firstCatalog firstPrices rfl first_runs⟩

/-! ## The checkout -/

/-- A session of the checkout is for the monthly price of the tier that it is labelled with, and
no other price has its id. -/
def Catalog.Charges (s : Catalog) : BillingCall → Prop
  | .sessionsCreate _ params => ∃ tier : Tier, params.metadata.tier = tier.name ∧
      ∃ price ∈ s.prices, params.lineItems = [(price.id, 1)] ∧ price.active = true ∧
        price.isOf tier.catalog = true ∧ ∀ q ∈ s.prices, q.id = price.id → q = price
  | _ => True

theorem Printed.exists_provides {s : Catalog} {ts : List CatalogTier}
    {printed : List (String × String)} (h : Printed s ts printed) {tier : CatalogTier}
    (htier : tier ∈ ts) : ∃ p ∈ printed, p.1 = tier.envVar ∧ s.Provides tier p.2 := by
  induction h with
  | nil => cases htier
  | @cons t p ts printed hhead _ ih =>
      rcases List.mem_cons.1 htier with rfl | htier
      · exact ⟨p, List.mem_cons_self, hhead⟩
      · obtain ⟨q, hq, hprovides⟩ := ih htier
        exact ⟨q, List.mem_cons_of_mem _ hq, hprovides⟩

theorem Tier.catalog_mem (tier : Tier) : tier.catalog ∈ tiers := by
  cases tier <;> simp [tiers]

theorem Tier.envVar_catalog (tier : Tier) : tier.catalog.envVar = tier.priceEnv := by
  cases tier <;> rfl

/-- The environment has what a run has printed: the checkout finds the price of the tier. -/
theorem exists_price {s : Catalog} {printed : List (String × String)} (h : s.Tidy)
    (hs : Provisioned s printed) {env : ProcessEnv} (henv : ∀ p ∈ printed, env p.1 = some p.2)
    (tier : Tier) :
    ∃ price ∈ s.prices, priceIdForTier env tier = .ok price.id ∧ price.active = true ∧
      price.isOf tier.catalog = true := by
  obtain ⟨p, hp, hvar, product, -, -, -, price, hprice, hof, hid⟩ :=
    hs.tiers.exists_provides tier.catalog_mem
  obtain ⟨hmem, hactive⟩ := List.mem_filter.1 hprice
  have hvalue : truthy (env tier.priceEnv) = some price.id := by
    rw [← tier.envVar_catalog, ← hvar, henv p hp, ← hid]
    exact Option.filter_eq_some_iff.2 ⟨rfl, by simpa using h.named price hmem⟩
  refine ⟨price, hmem, ?_, (Bool.and_eq_true_iff.1 hactive).2, hof⟩
  rw [priceIdForTier, hvalue]

theorem Catalog.Charges.sameObjects {s s' : Catalog} (hsame : SameObjects s s') {c : BillingCall}
    (h : s.Charges c) : s'.Charges c := by
  obtain ⟨ids, rfl⟩ := hsame
  cases c with
  | server c => trivial
  | sessionsCreate client params => exact h
  | constructEvent client payload signature secret => trivial

/-- Once the environment has what a run of the script has printed, and however often the script
is run after it, every session that the checkout asks for is for the monthly price of the tier
that it is labelled with. -/
theorem checkout_charges_tier {s₀ s s' s'' : Catalog} {secretKey : String}
    {printed : List (String × String)} (hs₀ : s₀.Tidy) (hs : Reaches CatalogStep s₀ s)
    (hindexed : s.unindexed = [])
    (hrun : (bootstrap secretKey).Runs catalogAnswers s s' (.ok printed))
    (hlater : Reaches CatalogStep s' s'') {process : StripeProcess}
    (henv : ∀ p ∈ printed, process.env p.1 = some p.2) (session : Session) (req : CheckoutRequest) :
    (postCheckout process session req).Only s''.Charges := by
  have htidy : s.Tidy := hs.invariant (fun _ _ _ h hstep => h.step hstep) hs₀
  obtain ⟨htidy', hprinted⟩ := Program.wp_runs _ (wp_bootstrap htidy hindexed secretKey) hrun
  have hsame : SameObjects s' s'' := sameObjects_of_reaches htidy' (hprinted printed rfl) hlater
  rw [postCheckout]
  split
  · trivial
  · trivial
  · split
    · trivial
    · split
      · trivial
      · rename_i tier _
        obtain ⟨price, hprice, hpriceId, hactive, hof⟩ :=
          exists_price htidy' (hprinted printed rfl) henv tier
        refine Program.only_done_bind fun stripe _ => ?_
        refine Program.only_done_bind fun priceId hok => ?_
        rw [hpriceId] at hok
        obtain rfl := Except.ok.inj hok
        refine Program.only_bind ((Program.only_perform _).2 ?_) fun _ => trivial
        refine Catalog.Charges.sameObjects hsame ?_
        exact ⟨tier, rfl, price, hprice, rfl, hactive, hof, fun q hq heq =>
          List.inj_on_of_nodup_map htidy'.priceIds hq hprice heq⟩

/-- The process after the first run. -/
def firstProcess : StripeProcess where
  env
    | "STRIPE_SECRET_KEY" => some "sk_test_1"
    | "STRIPE_TIER1_PRICE_ID" => some "price_1"
    | "STRIPE_TIER2_PRICE_ID" => some "price_2"
    | "STRIPE_TIER3_PRICE_ID" => some "price_3"
    | _ => none

theorem checkout_charges_tier_of_first :
    (postCheckout firstProcess buyer buyerRequest).Only firstCatalog.Charges :=
  checkout_charges_tier tidy_empty (.refl _ _) rfl first_runs (.refl _ _) (by decide) buyer
    buyerRequest

end EpsDapp
