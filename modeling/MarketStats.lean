import MarketStats.Aggregation.History
import MarketStats.Aggregation.Pass
import MarketStats.Aggregation.Schedule
import MarketStats.Aggregation.Walk
import MarketStats.Config
import MarketStats.Deployment.Basic
import MarketStats.Failure
import MarketStats.Model.Attributes
import MarketStats.Model.Collection
import MarketStats.Model.Leaderboard
import MarketStats.Model.Statistics
import MarketStats.Model.Transaction
import MarketStats.Model.Volume
import MarketStats.Proofs.Aggregation.Backfill
import MarketStats.Proofs.Aggregation.Effect
import MarketStats.Proofs.Aggregation.History
import MarketStats.Proofs.Aggregation.Partition
import MarketStats.Proofs.Aggregation.Repetition
import MarketStats.Proofs.Aggregation.Rounds
import MarketStats.Proofs.Aggregation.Totals
import MarketStats.Proofs.Cache.Purging
import MarketStats.Proofs.Cache.Ranking
import MarketStats.Proofs.Cache.Ranks
import MarketStats.Proofs.Config.Layers
import MarketStats.Proofs.Decimal.Order
import MarketStats.Proofs.Deployment.Outage
import MarketStats.Proofs.Double.Nearest
import MarketStats.Proofs.Double.Order
import MarketStats.Proofs.Double.Reader
import MarketStats.Proofs.Double.Shortest
import MarketStats.Proofs.Double.Written
import MarketStats.Proofs.Model.Attributes
import MarketStats.Proofs.Model.Codec
import MarketStats.Proofs.Redis.Agreement
import MarketStats.Proofs.Redis.Server
import MarketStats.Proofs.Redis.SortedSet
import MarketStats.Proofs.Registry.Agreement
import MarketStats.Proofs.Statistics.Census
import MarketStats.Proofs.Statistics.Definition
import MarketStats.Proofs.Statistics.Independence
import MarketStats.Proofs.Statistics.Listing
import MarketStats.Proofs.Statistics.Pages
import MarketStats.Redis.Address
import MarketStats.Redis.Command
import MarketStats.Redis.Reply
import MarketStats.Registry
import MarketStats.Statistics.Census
import MarketStats.Statistics.Computation
import MarketStats.Statistics.Lease
import MarketStats.Statistics.Published
