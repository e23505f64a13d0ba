import MarketStats.Deployment.Basic
import MarketStats.Statistics.Census

/-!
# Computing statistics

The statistics of a collection are computed from the marketplace store alone.
Its tokens are read page by page, up to the first page without tokens.  A
request that fails makes the whole computation fail.
-/

namespace MarketStats

/-- A page of tokens that was read: where it started, how many tokens it was
asked for, and the tokens. -/
structure TokenPage where
  offset : Nat
  limit : Nat
  tokens : List Token
deriving DecidableEq

namespace Operation

/-- The number of tokens that are asked for at a time, which is never zero. -/
def pageLimit (batchSize : Nat) : Nat :=
  max batchSize 1

/-- Read pages from an offset on, up to the first one without tokens, and at
most as many as the bound says. -/
def readPages (collectionId : Int64) (limit : Nat) :
    (bound offset : Nat) → Operation (List TokenPage)
  | 0, _ => pure []
  | bound + 1, offset => do
      let tokens ← askMarket (.page collectionId offset limit)
      let page : TokenPage := { offset, limit, tokens }
      if tokens.isEmpty then
        pure [page]
      else
        let later ← readPages collectionId limit bound (offset + tokens.length)
        pure (page :: later)

/-- Read all pages of a collection, the one without tokens included.  Every
other page has a token, so there are at most as many of them as tokens. -/
def readTokens (collectionId : Int64) (batchSize : Nat) : Operation (List TokenPage) := do
  let deployment ← get
  readPages collectionId (pageLimit batchSize)
    ((deployment.market.tokensOf collectionId).length + 1) 0

/-- The census of a collection, and the pages that were read for it. -/
def takeCensus (collectionId : Int64) (batchSize : Nat) : Operation (Census × List TokenPage) := do
  let pages ← readTokens collectionId batchSize
  pure (Census.ofTokens (pages.flatMap TokenPage.tokens), pages)

/-- Compute the statistics of a collection.  Its floor price is the smallest
price that was paid, and zero if nobody has bought. -/
def computeStatistics (collectionId : Int64) (batchSize : Nat) :
    Operation CollectionStatistics := do
  let leastPrice ← askMarket (.leastBuyPrice collectionId)
  let volumeTraded ← askMarket (.buyVolume collectionId)
  let (census, _) ← takeCensus collectionId batchSize
  pure
    { itemsTotal := UInt64.ofNat census.itemCount
      ownersTotal := UInt64.ofNat census.owners.size
      floorPrice := leastPrice.getD Decimal.zero
      volumeTraded
      attributes := census.attributes }

end Operation

end MarketStats
