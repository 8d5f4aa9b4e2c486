import Agora.Crdt.Convergence
import Agora.Crdt.OrSet
import Agora.EventRegistry.ActiveCount
import Agora.EventRegistry.Bridge
import Agora.EventRegistry.OrganizerIndex
import Agora.EventRegistry.Proposals
import Agora.EventRegistry.Resolution
import Agora.EventRegistry.Safeguards
import Agora.EventRegistry.SeriesPass
import Agora.EventRegistry.Solvency
import Agora.EventRegistry.Supply
import Agora.ProSubscription.Members
import Agora.ProSubscription.Period
import Agora.Sync.Delivery
import Agora.Sync.Mutations
import Agora.WaitingRoom.Fairness
import Agora.WaitingRoom.Rate
import Agora.WaitingRoom.Retention
import Agora.System.Completion
import Agora.System.Dispute
import Agora.System.Inventory
import Agora.System.Milestones
import Agora.TicketPayment.Auction
import Agora.TicketPayment.Balances
import Agora.TicketPayment.BulkRefund
import Agora.TicketPayment.BuyerIndex
import Agora.TicketPayment.Confinement
import Agora.TicketPayment.Discounts
import Agora.TicketPayment.DutchAuction
import Agora.TicketPayment.Fees
import Agora.TicketPayment.Governance
import Agora.TicketPayment.Limits
import Agora.TicketPayment.Poap
import Agora.TicketPayment.Redemption
import Agora.TicketPayment.Royalty
import Agora.TicketPayment.Shares
import Agora.TicketPayment.StatusIndex
import Agora.Zk.Checkin
import Agora.Indexer.FalseReorg
import Agora.System.TicketMirror
import Agora.TicketPayment.Conservation
import Agora.TicketPayment.AuctionTicket
import Agora.WaitingRoom.Challenge
import Agora.Mobile.VaultedTicket
import Agora.Qr.Scan
import Agora.Qr.Issued
import Agora.Zk.Buckets
import Agora.Marketplace.Settlement
import Agora.Mobile.Agreement
import Agora.TicketPayment.DutchPrice
import Agora.TicketPayment.BondingCurve
import Agora.EventRegistry.Tags
import Agora.EventRegistry.Seats
import Agora.TicketPayment.BatchSize
import Agora.TicketPayment.EscrowMilestones
import Agora.Sync.Retention
import Agora.Sync.Visible
import Agora.Indexer.Replay
import Agora.Indexer.Deferred
import Agora.Zk.Wire
import Agora.Zk.Binding
import Agora.Mobile.Ristretto.Encoding
import Agora.Mobile.Ristretto.Order
import Agora.Mobile.Ristretto.Group
import Agora.Mobile.Ristretto.Elligator
import Agora.Mobile.Ristretto.Scalars
import Agora.Mobile.Ristretto.Suite
import Agora.Mobile.Ristretto.Prover
import Agora.Mobile.Ristretto.Refinement
import Agora.Mobile.Ristretto.CheckinProof
import Agora.Server.Pagination
import Agora.Server.Listings
import Agora.Server.ListingWalks
