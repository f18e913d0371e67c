import OpcUaSuite.Client.Backoff
import OpcUaSuite.Client.ConnectionLoss
import OpcUaSuite.Client.PoolRetry
import OpcUaSuite.Client.Single
import OpcUaSuite.Client.StaleWork
import OpcUaSuite.JsonEncoder.DecodeErrors
import OpcUaSuite.JsonEncoder.RoundTrip
import OpcUaSuite.Nodes.AcceptedPublisher
import OpcUaSuite.Nodes.Agreement
import OpcUaSuite.Nodes.BrowseKept
import OpcUaSuite.Nodes.Browser
import OpcUaSuite.Nodes.CacheKept
import OpcUaSuite.Nodes.ClientRetry
import OpcUaSuite.Nodes.Delivery
import OpcUaSuite.Nodes.DeliveryOrder
import OpcUaSuite.Nodes.EventKept
import OpcUaSuite.Nodes.ItemModes
import OpcUaSuite.Nodes.Listeners
import OpcUaSuite.Nodes.PublisherId
import OpcUaSuite.Nodes.PublisherUpdates
import OpcUaSuite.Nodes.RetryAnswers
import OpcUaSuite.Nodes.ServerLifecycle
import OpcUaSuite.Nodes.SharedTransport
import OpcUaSuite.Nodes.SubscriptionKept
import OpcUaSuite.Nodes.Teardown
import OpcUaSuite.Nodes.UdpConnection
import OpcUaSuite.Nodes.Unwrapped
import OpcUaSuite.PubSub.ConfigAgreement
import OpcUaSuite.Transports.MqttTopics
import OpcUaSuite.Uadp.Announced
import OpcUaSuite.Uadp.Bounds
import OpcUaSuite.Uadp.GrowableStream
import OpcUaSuite.Uadp.Relay
import OpcUaSuite.Uadp.RoundTrip
import OpcUaSuite.Uadp.ScalarFaithful
import OpcUaSuite.Uadp.Trace
import OpcUaSuite.Utils.CertShelf
import OpcUaSuite.Utils.PkiLock
import OpcUaSuite.Utils.StructureFields
import OpcUaSuite.Variants.ParsedNodeId
import OpcUaSuite.Variants.ShapeFaithful
